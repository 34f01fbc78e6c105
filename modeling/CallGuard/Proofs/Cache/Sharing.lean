import CallGuard.Cache.Shared
import CallGuard.Proofs.Cache.Size
import Mathlib.Data.Fintype.Card

set_option autoImplicit false

namespace CallGuard.SharedCache

variable {P ε : Type} {n : Nat}

namespace Phase

-- The text for which a thread has the lock.
def locked? : Phase P ε → Option String
  | lookingAgain text => some text
  | compiling text => some text
  | compiled text _ => some text
  | counted text _ => some text
  | unlocking text _ => some text
  | _ => none

-- What a thread has compiled and not stored yet.
def made? : Phase P ε → Option (String × P)
  | compiled text program => some (text, program)
  | counted text program => some (text, program)
  | _ => none

def isCounted : Phase P ε → Bool
  | counted _ _ => true
  | _ => false

def Knows (c : ProgramCache P) : Phase P ε → Prop
  | compiling text => c.get? text = none
  | compiled text _ => c.get? text = none
  | counted text _ => c.get? text = none
  | unlocking text (.ok program) => c.get? text = some program
  | summing shard entries => shard ≤ shardCount ∧ entries ≤ c.sizeUpTo shard
  | _ => True

end Phase

-- The threads between counting a program and storing it.
def storing (s : SharedCache P ε n) : Finset (Fin n) :=
  Finset.univ.filter fun t => (s.phase t).isCounted = true

section

variable {s u : SharedCache P ε n} {t v : Fin n}

theorem phase_other (next : Step t s u) (other : v ≠ t) : u.phase v = s.phase v := by
  cases next <;> simp [enter, reply, setHolder, other]

def LocksHeld (s : SharedCache P ε n) : Prop :=
  ∀ k t, s.holder k = some t ↔ ∃ text, (s.phase t).locked? = some text ∧ s.stripeOf text = k

theorem LocksHeld.exclusive (locks : LocksHeld s) {text : String}
    (first : (s.phase t).locked? = some text) (second : (s.phase v).locked? = some text) :
    t = v := by
  have one := (locks (s.stripeOf text) t).2 ⟨text, first, rfl⟩
  have other := (locks (s.stripeOf text) v).2 ⟨text, second, rfl⟩
  exact Option.some.inj (one.symm.trans other)

theorem locksHeld_initial (shardOf : Sharding) (stripeOf : Striping) :
    LocksHeld (initial shardOf stripeOf : SharedCache P ε n) := by
  intro k t
  simp [initial, Phase.locked?]

theorem locksHeld_step (locks : LocksHeld s) (next : Step t s u) : LocksHeld u := by
  intro k v
  have known := locks k v
  cases next with
  | lock text h free =>
    by_cases same : v = t
    · subst same
      have notYet : s.holder k ≠ some v := by simp [known, h, Phase.locked?]
      by_cases here : k = s.stripeOf text
      · simp [enter, setHolder, Phase.locked?, here]
      · simpa [enter, setHolder, Phase.locked?, here, Ne.symm here] using notYet
    · -- Nobody had this lock before, and the other locks stay as they are.
      have still : s.holder (s.stripeOf text) ≠ some v := by simp [free]
      by_cases here : k = s.stripeOf text
      · subst here
        simpa [enter, setHolder, same, Ne.symm same, still] using known
      · simpa [enter, setHolder, same, here] using known
  | unlock text answer h =>
    have own : (s.phase t).locked? = some text := by rw [h]; rfl
    have holds := (locks (s.stripeOf text) t).2 ⟨text, own, rfl⟩
    by_cases same : v = t
    · subst same
      have only : s.holder k = some v → k = s.stripeOf text := by
        rw [known, h]
        rintro ⟨_, ⟨⟩, rfl⟩
        rfl
      simpa [enter, setHolder, reply, Phase.locked?] using fun elsewhere held => elsewhere (only held)
    · by_cases here : k = s.stripeOf text
      · subst here
        simpa [enter, setHolder, reply, same, holds, Ne.symm same] using known
      · simpa [enter, setHolder, reply, same, here] using known
  | _ =>
    by_cases same : v = t
    · subst same
      simp_all [enter, reply, Phase.locked?]
    · simpa [enter, reply, same] using known

theorem shards_step (next : Step t s u) :
    (u.cache.shardOf = s.cache.shardOf ∧ u.cache.shards = s.cache.shards ∧ u.stored = s.stored) ∨
      ∃ text program, s.phase t = .counted text program ∧
        u.cache = s.cache.store text program ∧ u.stored = (text, program) :: s.stored := by
  cases next with
  | store text program h => exact .inr ⟨text, program, h, rfl, rfl⟩
  | _ => exact .inl ⟨rfl, rfl, rfl⟩

structure Grows (c d : ProgramCache P) : Prop where
  entries (text : String) (program : P) : c.get? text = some program → d.get? text = some program
  sizes (k : Nat) : c.sizeUpTo k ≤ d.sizeUpTo k

theorem Grows.refl (c : ProgramCache P) : Grows c c := ⟨fun _ _ => id, fun _ => Nat.le_refl _⟩

theorem Grows.trans {c d e : ProgramCache P} (first : Grows c d) (second : Grows d e) :
    Grows c e :=
  ⟨fun text program found => second.entries text program (first.entries text program found),
    fun k => Nat.le_trans (first.sizes k) (second.sizes k)⟩

theorem absent_of_counted (knows : ∀ t, (s.phase t).Knows s.cache) {text : String} {program : P}
    (h : s.phase t = .counted text program) : s.cache.get? text = none := by
  have known := knows t
  rwa [h] at known

theorem grows_step (knows : ∀ t, (s.phase t).Knows s.cache) (next : Step t s u) :
    Grows s.cache u.cache := by
  rcases shards_step next with ⟨shardOf, shards, -⟩ | ⟨text, program, h, stored, -⟩
  · constructor
    · intro text program
      simp only [ProgramCache.get?, shardOf, shards, imp_self]
    · intro k
      simp only [ProgramCache.sizeUpTo, ProgramCache.lengths, shards, Nat.le_refl]
  · have absent := absent_of_counted knows h
    rw [stored]
    constructor
    · intro other p found
      rw [ProgramCache.get?_store]
      split
      · simp_all
      · exact found
    · exact s.cache.sizeUpTo_store text program absent

theorem missing_step (locks : LocksHeld s) (next : Step t s u) (other : v ≠ t) {text : String}
    (own : (s.phase v).locked? = some text) (absent : s.cache.get? text = none) :
    u.cache.get? text = none := by
  rcases shards_step next with ⟨shardOf, shards, -⟩ | ⟨text', program, h, stored, -⟩
  · simpa only [ProgramCache.get?, shardOf, shards] using absent
  · have different : text ≠ text' := by
      rintro rfl
      exact other (locks.exclusive own (by rw [h]; rfl))
    rw [stored, ProgramCache.get?_store, if_neg different, absent]

theorem knows_step (locks : LocksHeld s) (knows : ∀ t, (s.phase t).Knows s.cache)
    (next : Step t s u) : (u.phase v).Knows u.cache := by
  have grows := grows_step knows next
  by_cases same : v = t
  · subst same
    have known := knows v
    cases next with
    | sum shard entries h more =>
      obtain ⟨-, counted⟩ := by simpa [h, Phase.Knows] using known
      have summed := s.cache.sizeUpTo_succ shard more
      simp only [enter, if_true, Phase.Knows]
      omega
    | _ => simp_all [enter, reply, setHolder, Phase.Knows, ProgramCache.get?_store]
  · rw [phase_other next same]
    have known := knows v
    -- What is missing stays so for want of the lock; all else only grows.
    cases h : s.phase v with
    | compiling text | compiled text | counted text =>
      rw [h] at known
      exact missing_step locks next same (by rw [h]; rfl) known
    | unlocking text answer =>
      rw [h] at known
      cases answer with
      | error e => trivial
      | ok program => exact grows.entries text program known
    | summing shard entries =>
      rw [h] at known
      exact ⟨known.1, Nat.le_trans known.2 (grows.sizes shard)⟩
    | _ => trivial

structure Recorded (s : SharedCache P ε n) : Prop where
  entry (text : String) (program : P) :
    s.cache.get? text = some program ↔ (text, program) ∈ s.stored
  once : (s.stored.map Prod.fst).Nodup

theorem Recorded.not_mem (recorded : Recorded s) {text : String}
    (absent : s.cache.get? text = none) : text ∉ s.stored.map Prod.fst := by
  simp only [List.mem_map, Prod.exists, exists_and_right, exists_eq_right, not_exists]
  intro program member
  have found := (recorded.entry text program).2 member
  rw [absent] at found
  cases found

theorem recorded_step (recorded : Recorded s) (knows : ∀ t, (s.phase t).Knows s.cache)
    (next : Step t s u) : Recorded u := by
  rcases shards_step next with ⟨shardOf, shards, stored⟩ | ⟨text, program, h, cache, stored⟩
  · constructor
    · intro text program
      simpa only [ProgramCache.get?, shardOf, shards, stored] using recorded.entry text program
    · rw [stored]
      exact recorded.once
  · have absent := absent_of_counted knows h
    have new := recorded.not_mem absent
    constructor
    · intro other p
      rw [cache, stored, ProgramCache.get?_store, List.mem_cons, Prod.mk.injEq,
        ← recorded.entry other p]
      by_cases same : other = text
      · subst same
        simp [absent, eq_comm]
      · simp [same]
    · rw [stored, List.map_cons, List.nodup_cons]
      exact ⟨new, recorded.once⟩

structure Compiled (s : SharedCache P ε n) : Prop where
  made (text : String) (program : P) : (text, program) ∈ s.compilations ↔
    (text, program) ∈ s.stored ∨ ∃ t, (s.phase t).made? = some (text, program)
  once : (s.compilations.map Prod.fst).Nodup

theorem made_iff {x : String × P} (t : Fin n) :
    (∃ v, (s.phase v).made? = some x) ↔
      (s.phase t).made? = some x ∨ ∃ v, v ≠ t ∧ (s.phase v).made? = some x := by
  constructor
  · rintro ⟨v, made⟩
    by_cases same : v = t
    · exact .inl (same ▸ made)
    · exact .inr ⟨v, same, made⟩
  · rintro (made | ⟨v, -, made⟩)
    · exact ⟨t, made⟩
    · exact ⟨v, made⟩

theorem others_made (next : Step t s u) {x : String × P} :
    (∃ v, v ≠ t ∧ (u.phase v).made? = some x) ↔ ∃ v, v ≠ t ∧ (s.phase v).made? = some x :=
  exists_congr fun v => and_congr_right fun other => by rw [phase_other next other]

theorem Phase.locked_of_made {p : Phase P ε} {text : String} {program : P}
    (made : p.made? = some (text, program)) : p.locked? = some text := by
  cases p <;> simp_all [made?, locked?]

theorem Compiled.not_mem (compiled : Compiled s) (recorded : Recorded s) (locks : LocksHeld s)
    {text : String} (h : s.phase t = .compiling text) (absent : s.cache.get? text = none) :
    text ∉ s.compilations.map Prod.fst := by
  simp only [List.mem_map, Prod.exists, exists_and_right, exists_eq_right, not_exists]
  intro program member
  rcases (compiled.made text program).1 member with stored | ⟨v, made⟩
  · exact recorded.not_mem absent (List.mem_map_of_mem stored)
  · obtain rfl := locks.exclusive (Phase.locked_of_made made) (by rw [h]; rfl)
    rw [h] at made
    cases made

theorem compiled_step (compiled : Compiled s) (recorded : Recorded s) (locks : LocksHeld s)
    (knows : ∀ t, (s.phase t).Knows s.cache) (next : Step t s u) : Compiled u := by
  have step := next
  cases next with
  | compile text program h =>
    have absent : s.cache.get? text = none := by simpa [h, Phase.Knows] using knows t
    have new := compiled.not_mem recorded locks h absent
    constructor
    · intro other p
      have before := compiled.made other p
      rw [made_iff t, h] at before
      rw [made_iff t, others_made step]
      have own : (other, p) ∈ s.compilations ↔
          (other, p) ∈ s.stored ∨ ∃ v, v ≠ t ∧ (s.phase v).made? = some (other, p) := by
        simpa [Phase.made?] using before
      simp only [enter, if_true, Phase.made?, Option.some.injEq, List.mem_cons, own,
        eq_comm (a := (other, p))]
      exact or_left_comm
    · exact List.nodup_cons.2 ⟨new, compiled.once⟩
  | store text program h =>
    refine ⟨fun other p => ?_, compiled.once⟩
    have before := compiled.made other p
    rw [made_iff t, h] at before
    rw [made_iff t, others_made step]
    simp only [enter, if_true, Phase.made?, reduceCtorEq, false_or, List.mem_cons, or_assoc]
    simp only [Phase.made?, Option.some.injEq, eq_comm (b := (other, p))] at before
    exact before.trans or_left_comm
  | _ =>
    refine ⟨fun other p => ?_, compiled.once⟩
    have before := compiled.made other p
    rw [made_iff t] at before
    rw [made_iff t, others_made step]
    simp_all [enter, reply, setHolder, Phase.made?]

theorem answer_step (knows : ∀ t, (s.phase t).Knows s.cache) (next : Step t s u) {text : String}
    {program : P} (answered : (text, .ok program) ∈ u.answers) :
    (text, .ok program) ∈ s.answers ∨ s.cache.get? text = some program := by
  have known := knows t
  cases next with
  | hit text' program' h found =>
    rcases List.mem_cons.1 answered with same | earlier
    · cases same
      exact .inr found
    · exact .inl earlier
  | unlock text' answer h =>
    rcases List.mem_cons.1 answered with same | earlier
    · cases same
      exact .inr (by simpa [h, Phase.Knows] using known)
    · exact .inl earlier
  | _ => exact .inl answered

theorem mem_storing : v ∈ s.storing ↔ (s.phase v).isCounted = true := by
  simp [storing]

theorem storing_eq (next : Step t s u)
    (same : (u.phase t).isCounted = (s.phase t).isCounted) : u.storing = s.storing := by
  ext v
  rw [mem_storing, mem_storing]
  by_cases here : v = t
  · rw [here, same]
  · rw [phase_other next here]

theorem storing_insert (next : Step t s u) (now : (u.phase t).isCounted = true) :
    u.storing = insert t s.storing := by
  ext v
  rw [Finset.mem_insert, mem_storing, mem_storing]
  by_cases here : v = t
  · simp [here, now]
  · simp [here, phase_other next here]

theorem storing_erase (next : Step t s u) (now : (u.phase t).isCounted = false) :
    u.storing = s.storing.erase t := by
  ext v
  rw [Finset.mem_erase, mem_storing, mem_storing]
  by_cases here : v = t
  · simp [here, now]
  · simp [here, phase_other next here]

-- Every program that has been counted is an entry, or about to be one.
def Counts (s : SharedCache P ε n) : Prop :=
  s.cache.size + s.storing.card = s.cache.compiles

theorem counts_step (counts : Counts s) (knows : ∀ t, (s.phase t).Knows s.cache)
    (next : Step t s u) : Counts u := by
  have step := next
  unfold Counts at counts ⊢
  cases next with
  | count text program h =>
    have new : t ∉ s.storing := by simp [mem_storing, h, Phase.isCounted]
    rw [storing_insert step (by simp [enter, Phase.isCounted]), Finset.card_insert_of_notMem new]
    change s.cache.size + (s.storing.card + 1) = s.cache.compiles + 1
    omega
  | store text program h =>
    have absent := absent_of_counted knows h
    have among : t ∈ s.storing := by simp [mem_storing, h, Phase.isCounted]
    have some : 0 < s.storing.card := Finset.card_pos.2 ⟨t, among⟩
    rw [storing_erase step (by simp [enter, Phase.isCounted]), Finset.card_erase_of_mem among]
    change (s.cache.store text program).size + (s.storing.card - 1) = s.cache.compiles
    rw [s.cache.size_store text program absent]
    omega
  | _ =>
    rw [storing_eq step (by simp_all [enter, reply, setHolder, Phase.isCounted])]
    exact counts

theorem report_step (counts : Counts s) (knows : ∀ t, (s.phase t).Knows s.cache)
    (next : Step t s u) {r : CacheStats} (reported : r ∈ u.reports) :
    r ∈ s.reports ∨ r.entries ≤ r.compiles := by
  have known := knows t
  cases next with
  | report entries h =>
    rcases List.mem_cons.1 reported with rfl | earlier
    · rw [h] at known
      have most := known.2
      rw [ProgramCache.sizeUpTo_all] at most
      unfold Counts at counts
      exact .inr (by simp only; omega)
    · exact .inl earlier
  | _ => exact .inl reported

structure Sound (s : SharedCache P ε n) : Prop where
  locks : LocksHeld s
  knows (t : Fin n) : (s.phase t).Knows s.cache
  recorded : Recorded s
  compiled : Compiled s
  answered (text : String) (program : P) :
    (text, .ok program) ∈ s.answers → s.cache.get? text = some program
  counts : Counts s
  reported (r : CacheStats) : r ∈ s.reports → r.entries ≤ r.compiles

theorem sound_initial (shardOf : Sharding) (stripeOf : Striping) :
    Sound (initial shardOf stripeOf : SharedCache P ε n) where
  locks := locksHeld_initial shardOf stripeOf
  knows _ := trivial
  recorded := ⟨fun text program => by simp [initial, ProgramCache.get?_empty], List.nodup_nil⟩
  compiled := ⟨fun text program => by simp [initial, Phase.made?], List.nodup_nil⟩
  answered := by simp [initial]
  counts := by
    have nobody : (initial shardOf stripeOf : SharedCache P ε n).storing = ∅ := by
      ext t
      simp [mem_storing, initial, Phase.isCounted]
    rw [Counts, nobody, Finset.card_empty]
    exact ProgramCache.size_empty shardOf
  reported := by simp [initial]

theorem sound_step (sound : Sound s) (next : Step t s u) : Sound u where
  locks := locksHeld_step sound.locks next
  knows _ := knows_step sound.locks sound.knows next
  recorded := recorded_step sound.recorded sound.knows next
  compiled := compiled_step sound.compiled sound.recorded sound.locks sound.knows next
  answered text program answered := by
    refine (grows_step sound.knows next).entries text program ?_
    exact (answer_step sound.knows next answered).elim (sound.answered text program) id
  counts := counts_step sound.counts sound.knows next
  reported r reported :=
    (report_step sound.counts sound.knows next reported).elim (sound.reported r) id

theorem sound_run (sound : Sound s) (run : Reaches s u) : Sound u := by
  induction run with
  | refl => exact sound
  | step t before next ih => exact sound_step ih next

theorem grows_run (sound : Sound s) (run : Reaches s u) : Grows s.cache u.cache := by
  induction run with
  | refl => exact .refl s.cache
  | step t before next ih => exact ih.trans (grows_step (sound_run sound before).knows next)

-- A run in which one thread does nothing.
inductive Besides (t : Fin n) : SharedCache P ε n → SharedCache P ε n → Prop
  | refl (s : SharedCache P ε n) : Besides t s s
  | step {s u w : SharedCache P ε n} (v : Fin n) (other : v ≠ t) (before : Besides t s u)
      (next : Step v u w) :
    Besides t s w

theorem Besides.reaches (run : Besides t s u) : Reaches s u := by
  induction run with
  | refl => exact .refl s
  | step v other before next ih => exact .step v ih next

theorem Besides.phase_eq (run : Besides t s u) : u.phase t = s.phase t := by
  induction run with
  | refl => rfl
  | step v other before next ih => rw [phase_other next (Ne.symm other), ih]

def found (s : SharedCache P ε n) (t : Fin n) (text : String) (program : P) : SharedCache P ε n :=
  ({ s with cache := s.cache.countHit }.reply text (.ok program)).enter t .outside

theorem step_iff_found {text : String} {program : P} (h : s.phase t = .looking text)
    (cached : s.cache.get? text = some program) :
    Step t s u ↔ u = s.found t text program := by
  constructor
  · intro next
    cases next with
    | hit text' program' h' entry =>
      rw [h] at h'
      cases h'
      rw [cached] at entry
      cases entry
      rfl
    | miss text' h' absent =>
      rw [h] at h'
      cases h'
      rw [cached] at absent
      cases absent
    | _ => simp_all
  · rintro rfl
    exact .hit s text program h cached

theorem step_of_locked (outcome : Except ε P) {text : String}
    (locked : (s.phase t).locked? = some text) : ∃ u, Step t s u := by
  cases h : s.phase t with
  | lookingAgain text' =>
    cases entry : s.cache.get? text' with
    | some program => exact ⟨_, .hitAgain s text' program h entry⟩
    | none => exact ⟨_, .missAgain s text' h entry⟩
  | compiling text' =>
    cases outcome with
    | ok program => exact ⟨_, .compile s text' program h⟩
    | error e => exact ⟨_, .fail s text' e h⟩
  | compiled text' program => exact ⟨_, .count s text' program h⟩
  | counted text' program => exact ⟨_, .store s text' program h⟩
  | unlocking text' answer => exact ⟨_, .unlock s text' answer h⟩
  | _ => simp [h, Phase.locked?] at locked

theorem step_or_waits (sound : Sound s) (outcome : Except ε P) (busy : s.phase t ≠ .outside) :
    (∃ u, Step t s u) ∨ ∃ text v, s.phase t = .waiting text ∧
      s.holder (s.stripeOf text) = some v ∧ s.phase v ≠ .outside ∧ ∃ u, Step v s u := by
  cases h : s.phase t with
  | outside => exact absurd h busy
  | looking text =>
    cases entry : s.cache.get? text with
    | some program => exact .inl ⟨_, .hit s text program h entry⟩
    | none => exact .inl ⟨_, .miss s text h entry⟩
  | waiting text =>
    cases free : s.holder (s.stripeOf text) with
    | none => exact .inl ⟨_, .lock s text h free⟩
    | some v =>
      obtain ⟨other, locked, -⟩ := (sound.locks _ v).1 free
      have inside : s.phase v ≠ .outside := by
        intro outside
        simp [outside, Phase.locked?] at locked
      exact .inr ⟨text, v, rfl, free, inside, step_of_locked outcome locked⟩
  | summing shard entries =>
    have within : shard ≤ shardCount := by
      have known := sound.knows t
      rw [h] at known
      exact known.1
    rcases Nat.lt_or_eq_of_le within with more | rfl
    · exact .inl ⟨_, .sum s shard entries h more⟩
    · exact .inl ⟨_, .report s entries h⟩
  | lookingAgain text | compiling text | compiled text | counted text | unlocking text =>
    exact .inl (step_of_locked outcome (show _ = some text by rw [h]; rfl))

-- Answers agree because an entry, once stored, stays.
theorem compiled_at_most_once (shardOf : Sharding) (stripeOf : Striping)
    (reached : Reaches (initial shardOf stripeOf) s) :
    (s.compilations.map Prod.fst).Nodup ∧ (s.stored.map Prod.fst).Nodup ∧
    (∀ text program, s.cache.get? text = some program ↔ (text, program) ∈ s.stored) ∧
    (∀ u, Reaches s u → ∀ text program, s.cache.get? text = some program →
      u.cache.get? text = some program) ∧
    (∀ text program another, (text, .ok program) ∈ s.answers → (text, .ok another) ∈ s.answers →
      program = another) ∧
    s.cache.size + s.storing.card = s.cache.compiles ∧
    (∀ r ∈ s.reports, r.entries ≤ r.compiles) ∧
    (∀ t text program, s.phase t = .looking text → s.cache.get? text = some program →
      ∀ u, Besides t s u → u.phase t = .looking text ∧
        ∀ v, Step t u v ↔ v = u.found t text program) ∧
    (Except ε P → (∃ t, s.phase t ≠ .outside) → ∃ t u, s.phase t ≠ .outside ∧ Step t s u) := by
  have sound := sound_run (sound_initial shardOf stripeOf) reached
  refine ⟨sound.compiled.once, sound.recorded.once, sound.recorded.entry, ?kept, ?same,
    sound.counts, sound.reported, ?lookups, ?progress⟩
  case kept => exact fun u run => (grows_run sound run).entries
  case same =>
    intro text program another first second
    have one := sound.answered text program first
    have other := sound.answered text another second
    exact Option.some.inj (one.symm.trans other)
  case lookups =>
    intro t text program h cached u run
    have still : u.phase t = .looking text := run.phase_eq.trans h
    have entry := (grows_run sound run.reaches).entries text program cached
    exact ⟨still, fun v => step_iff_found still entry⟩
  case progress =>
    rintro outcome ⟨t, busy⟩
    rcases step_or_waits sound outcome busy with ⟨u, next⟩ | ⟨text, v, -, -, inside, u, next⟩
    · exact ⟨t, u, busy, next⟩
    · exact ⟨v, u, inside, next⟩

end

theorem second_thread_finds_program :
    ∃ s : SharedCache Nat String 2, Reaches (initial (fun _ => 0) fun _ => 0) s ∧
      s.compilations = [("true", 7)] ∧ s.answers = [("true", .ok 7), ("true", .ok 7)] ∧
      (s.stored.map Prod.fst).Nodup ∧ s.cache.size + s.storing.card = s.cache.compiles := by
  have run := Reaches.refl (initial (fun _ => 0) fun _ => 0 : SharedCache Nat String 2)
  have run := run.step 0 (.ask _ "true" rfl)
  have run := run.step 0 (.miss _ "true" rfl rfl)
  have run := run.step 1 (.ask _ "true" rfl)
  have run := run.step 1 (.miss _ "true" rfl rfl)
  have run := run.step 0 (.lock _ "true" rfl rfl)
  have run := run.step 0 (.missAgain _ "true" rfl rfl)
  have run := run.step 0 (.compile _ "true" 7 rfl)
  have run := run.step 0 (.count _ "true" 7 rfl)
  have run := run.step 0 (.store _ "true" 7 rfl)
  have run := run.step 0 (.unlock _ "true" (.ok 7) rfl)
  have run := run.step 1 (.lock _ "true" rfl rfl)
  have run := run.step 1 (.hitAgain _ "true" 7 rfl rfl)
  have run := run.step 1 (.unlock _ "true" (.ok 7) rfl)
  obtain ⟨-, once, -, -, -, counts, -⟩ := compiled_at_most_once _ _ run
  exact ⟨_, run, rfl, rfl, once, counts⟩

end CallGuard.SharedCache
