import CallGuard.Pool.Shared
import Mathlib.Algebra.BigOperators.Fin
import Mathlib.Algebra.Order.BigOperators.Group.Finset
import Mathlib.Data.Fintype.Card
import Mathlib.Tactic.Abel

set_option autoImplicit false

namespace CallGuard.SharedPool

variable {α : Type} {n : Nat}

namespace Phase

-- What a thread has on its way back to the pool.
def carried : Phase α → List (Item α)
  | returning item => [item]
  | _ => []

def isReturning : Phase α → Bool
  | returning _ => true
  | _ => false

def isMaking : Phase α → Bool
  | making => true
  | _ => false

def isForgetting : Phase α → Bool
  | forgetting => true
  | _ => false

-- Whether a thread has a slot that stands for no instance yet, or for none any more.
def hasEmptySlot : Phase α → Bool
  | making => true
  | forgetting => true
  | _ => false

theorem carried_of_looks {p : Phase α} {late : Bool} (looks : p.looks? = some late) :
    p.carried = [] := by
  cases p <;> simp_all [looks?, carried]

theorem hasEmptySlot_of_looks {p : Phase α} {late : Bool} (looks : p.looks? = some late) :
    p.hasEmptySlot = false := by
  cases p <;> simp_all [looks?, hasEmptySlot]

end Phase

def count (s : SharedPool α n) (p : Phase α → Bool) : Nat :=
  (Finset.univ.filter fun t => p (s.phase t) = true).card

theorem sum_exchange {M : Type} [AddCommMonoid M] (g : Fin n → M) (t : Fin n) (x : M) :
    (∑ v, if v = t then x else g v) + g t = (∑ v, g v) + x := by
  have others : ∑ v ∈ Finset.univ.erase t, (if v = t then x else g v) =
      ∑ v ∈ Finset.univ.erase t, g v :=
    Finset.sum_congr rfl fun v member => if_neg (Finset.ne_of_mem_erase member)
  rw [← Finset.add_sum_erase _ _ (Finset.mem_univ t), others,
    ← Finset.add_sum_erase _ g (Finset.mem_univ t), if_pos rfl]
  abel

section

variable {s u : SharedPool α n} {t : Fin n}

theorem count_pos_iff {p : Phase α → Bool} : 0 < s.count p ↔ ∃ t, p (s.phase t) = true := by
  simp [count, Finset.card_pos, Finset.Nonempty]

theorem count_enter (s : SharedPool α n) (t : Fin n) (q : Phase α) (p : Phase α → Bool) :
    (s.enter t q).count p + (if p (s.phase t) = true then 1 else 0) =
      s.count p + if p q = true then 1 else 0 := by
  have exchange := sum_exchange (fun v => if p (s.phase v) = true then 1 else 0) t
    (if p q = true then 1 else 0)
  rw [count, count, Finset.card_filter, Finset.card_filter, ← exchange]
  congr 1
  refine Finset.sum_congr rfl fun v _ => ?_
  by_cases here : v = t <;> simp [enter, here]

theorem count_enter_same {p : Phase α → Bool} {q : Phase α} (same : p (s.phase t) = p q) :
    (s.enter t q).count p = s.count p :=
  Nat.add_right_cancel (same ▸ count_enter s t q p)

theorem count_enter_gain {p : Phase α → Bool} {q : Phase α} (before : p (s.phase t) = false)
    (after : p q = true) : (s.enter t q).count p = s.count p + 1 := by
  simpa [before, after] using count_enter s t q p

theorem count_enter_loss {p : Phase α → Bool} {q : Phase α} (before : p (s.phase t) = true)
    (after : p q = false) : (s.enter t q).count p + 1 = s.count p := by
  simpa [before, after] using count_enter s t q p

theorem emptySlots_eq (s : SharedPool α n) :
    s.count Phase.hasEmptySlot = s.count Phase.isMaking + s.count Phase.isForgetting := by
  simp only [count, Finset.card_filter, ← Finset.sum_add_distrib]
  refine Finset.sum_congr rfl fun t _ => ?_
  cases s.phase t <;> rfl

-- What a thread holds or is about to give back.
def own (s : SharedPool α n) (t : Fin n) : Multiset (Item α) := ↑(s.held t ++ (s.phase t).carried)

def items (s : SharedPool α n) : Multiset (Item α) := ↑s.pool.idle + ∑ t, s.own t

theorem items_exchange (idle : u.pool.idle = s.pool.idle)
    (others : ∀ v, v ≠ t → u.own v = s.own v) : u.items + s.own t = s.items + u.own t := by
  have exchange := sum_exchange s.own t (u.own t)
  have changed : (fun v => if v = t then u.own t else s.own v) = u.own := by
    funext v
    by_cases here : v = t
    · simp [here]
    · simp [here, others v here]
  rw [changed] at exchange
  rw [items, items, idle, add_assoc, add_assoc, exchange]

theorem items_enter (s : SharedPool α n) (t : Fin n) (q : Phase α) :
    (s.enter t q).items + ↑(s.phase t).carried = s.items + ↑q.carried := by
  have exchange := items_exchange (s := s) (u := s.enter t q) (t := t) rfl fun v other => by
    simp [own, enter, other]
  simp only [own, enter, if_true, ← Multiset.coe_add] at exchange
  refine add_left_cancel (a := (s.held t : Multiset (Item α))) ?_
  rw [add_left_comm, add_left_comm _ s.items]
  exact exchange

theorem items_enter_same {q : Phase α} (same : (s.phase t).carried = q.carried) :
    (s.enter t q).items = s.items :=
  add_right_cancel (same ▸ items_enter s t q)

theorem items_setHeld (s : SharedPool α n) (t : Fin n) (held : List (Item α)) :
    (s.setHeld t held).items + ↑(s.held t) = s.items + ↑held := by
  have exchange := items_exchange (s := s) (u := s.setHeld t held) (t := t) rfl fun v other => by
    simp [own, setHeld, other]
  simp only [own, setHeld, if_true, ← Multiset.coe_add, ← add_assoc] at exchange
  exact add_right_cancel exchange

theorem items_give (s : SharedPool α n) (t : Fin n) (item : Item α) :
    (s.give t item).items = item ::ₘ s.items := by
  have exchange := items_setHeld s t (item :: s.held t)
  rw [← Multiset.cons_coe, Multiset.add_cons, ← Multiset.cons_add] at exchange
  exact add_right_cancel exchange

theorem items_without {before after : List (Item α)} {item : Item α}
    (holds : s.held t = before ++ item :: after) :
    item ::ₘ (s.setHeld t (before ++ after)).items = s.items := by
  have exchange := items_setHeld s t (before ++ after)
  have split : (s.held t : Multiset (Item α)) = item ::ₘ ↑(before ++ after) := by
    rw [holds, Multiset.cons_coe]
    exact Multiset.coe_eq_coe.2 List.perm_middle
  rw [split, Multiset.add_cons, ← Multiset.cons_add] at exchange
  exact add_right_cancel exchange

theorem items_replaced (s : SharedPool α n) (t : Fin n) (before after : List (Item α))
    (item : Item α) :
    (s.setHeld t (before ++ item :: after)).items =
      item ::ₘ (s.setHeld t (before ++ after)).items := by
  have exchange := items_setHeld s t (before ++ item :: after)
  have shorter := items_setHeld s t (before ++ after)
  have split : (↑(before ++ item :: after) : Multiset (Item α)) = item ::ₘ ↑(before ++ after) := by
    rw [Multiset.cons_coe]
    exact Multiset.coe_eq_coe.2 List.perm_middle
  rw [split, Multiset.add_cons, ← shorter, ← Multiset.cons_add] at exchange
  exact add_right_cancel exchange

theorem card_items (s : SharedPool α n) :
    s.items.card =
      s.pool.idle.length + ∑ t, (s.held t).length + s.count Phase.isReturning := by
  have each (t : Fin n) : (s.own t).card =
      (s.held t).length + if (s.phase t).isReturning = true then 1 else 0 := by
    cases h : s.phase t <;> simp [own, h, Phase.carried, Phase.isReturning]
  simp only [items, Multiset.card_add, Multiset.coe_card, Multiset.card_sum, each,
    Finset.sum_add_distrib, count, Finset.card_filter, Nat.add_assoc]

inductive Flow (s u : SharedPool α n) : Prop
  | moved (items : u.items = s.items) (created : u.pool.created = s.pool.created)
      (empty : u.count Phase.hasEmptySlot = s.count Phase.hasEmptySlot) (made : u.made = s.made)
      (gone : u.gone = s.gone)
  | reserved (room : s.pool.created < s.pool.capacity) (items : u.items = s.items)
      (created : u.pool.created = s.pool.created + 1)
      (empty : u.count Phase.hasEmptySlot = s.count Phase.hasEmptySlot + 1)
      (made : u.made = s.made) (gone : u.gone = s.gone)
  | filled (content : α) (items : u.items = ⟨s.made, content⟩ ::ₘ s.items)
      (created : u.pool.created = s.pool.created)
      (empty : u.count Phase.hasEmptySlot + 1 = s.count Phase.hasEmptySlot)
      (made : u.made = s.made + 1) (gone : u.gone = s.gone)
  | changed (item : Item α) (content : α) (others : Multiset (Item α))
      (before : s.items = item ::ₘ others) (after : u.items = { item with content } ::ₘ others)
      (created : u.pool.created = s.pool.created)
      (empty : u.count Phase.hasEmptySlot = s.count Phase.hasEmptySlot) (made : u.made = s.made)
      (gone : u.gone = s.gone)
  | emptied (item : Item α) (items : s.items = item ::ₘ u.items)
      (created : u.pool.created = s.pool.created)
      (empty : u.count Phase.hasEmptySlot = s.count Phase.hasEmptySlot + 1)
      (made : u.made = s.made) (gone : u.gone = item.number :: s.gone)
  | givenUp (items : u.items = s.items) (created : u.pool.created = s.pool.created - 1)
      (empty : u.count Phase.hasEmptySlot + 1 = s.count Phase.hasEmptySlot)
      (made : u.made = s.made) (gone : u.gone = s.gone)

theorem flow_step (next : Step t s u) : Flow s u := by
  cases next with
  | take isLate item rest h idle =>
    have nothing := Phase.carried_of_looks h
    have nowhere := Phase.hasEmptySlot_of_looks h
    refine .moved ?_ rfl (count_enter_same nowhere) rfl rfl
    rw [items_enter_same (by simpa [give, setHeld, Phase.carried] using nothing), items_give]
    simp only [items, own, idle, ← Multiset.cons_coe, Multiset.cons_add]
  | reserve isLate h idle room =>
    exact .reserved room (items_enter_same (Phase.carried_of_looks h)) rfl
      (count_enter_gain (Phase.hasEmptySlot_of_looks h) rfl) rfl rfl
  | wait h idle full =>
    exact .moved (items_enter_same (Phase.carried_of_looks h)) rfl
      (count_enter_same (Phase.hasEmptySlot_of_looks h)) rfl rfl
  | refuse h idle full =>
    exact .moved (items_enter_same (Phase.carried_of_looks h)) rfl
      (count_enter_same (Phase.hasEmptySlot_of_looks h)) rfl rfl
  | make content h =>
    refine .filled content ?_ rfl ?_ rfl rfl
    · rw [items_enter_same (by simp [give, setHeld, h, Phase.carried]), items_give]
      rfl
    · exact count_enter_loss (by simp [give, setHeld, h, Phase.hasEmptySlot]) rfl
  | change before after item content h holds =>
    exact .changed item content _ (items_without holds).symm (items_replaced s t before after _)
      rfl rfl rfl rfl
  | pass v before after item h holds =>
    refine .moved ?_ rfl rfl rfl rfl
    rw [items_give]
    exact items_without holds
  | release before after item h holds =>
    have entered := items_enter (s.setHeld t (before ++ after)) t (.returning item)
    have outside : (s.setHeld t (before ++ after)).phase t = .outside := h
    refine .moved ?_ rfl (count_enter_same (by rw [outside]; rfl)) rfl rfl
    rw [← items_without holds, ← Multiset.singleton_add, add_comm]
    simpa [outside, Phase.carried] using entered
  | discard before after item h holds =>
    refine .emptied item ?_ rfl (count_enter_gain (by simp [setHeld, h, Phase.hasEmptySlot]) rfl)
      rfl rfl
    rw [items_enter_same (by simp [setHeld, h, Phase.carried])]
    exact (items_without holds).symm
  | putBack item h =>
    have entered := items_enter { s with pool := s.pool.release item } t .waking
    have pushed : items { s with pool := s.pool.release item } = s.items + {item} := by
      simp only [items, own, Pool.release, ← Multiset.cons_coe, Multiset.cons_add]
      rw [← Multiset.singleton_add, add_comm]
    refine .moved ?_ rfl (count_enter_same (by rw [h]; rfl)) rfl rfl
    rw [pushed] at entered
    simpa [h, Phase.carried] using entered
  | forget h =>
    exact .givenUp (items_enter_same (by rw [h]; rfl)) rfl
      (count_enter_loss (by rw [h]; rfl) rfl) rfl rfl
  | wake v timed h waits =>
    have differs : t ≠ v := by
      rintro rfl
      simp [h] at waits
    have waking : (s.enter v (.woken timed)).phase t = .waking := by simp [enter, differs, h]
    refine .moved ?_ rfl ?_ rfl rfl
    · rw [items_enter_same (by rw [waking]; rfl), items_enter_same (by rw [waits]; rfl)]
    · rw [count_enter_same (by rw [waking]; rfl), count_enter_same (by rw [waits]; rfl)]
  | ask timed h | expire h | stir timed h | fail h | wakeNone h nobody =>
    exact .moved (items_enter_same (by rw [h]; rfl)) rfl (count_enter_same (by rw [h]; rfl)) rfl rfl

theorem capacity_step (next : Step t s u) : u.pool.capacity = s.pool.capacity := by
  cases next <;> rfl

def numbers (s : SharedPool α n) : Multiset Nat := s.items.map Item.number

structure Sound (s : SharedPool α n) : Prop where
  within : s.pool.created ≤ s.pool.capacity
  balanced : s.pool.created = s.numbers.card + s.count Phase.hasEmptySlot
  distinct : s.numbers.Nodup
  fresh : ∀ k ∈ s.numbers, k < s.made
  spent : ∀ k ∈ s.gone, k < s.made ∧ k ∉ s.numbers

theorem sound_initial (capacity : Nat) : Sound (initial capacity : SharedPool α n) := by
  have nothing : (initial capacity : SharedPool α n).numbers = 0 := by
    simp [numbers, items, own, initial, Pool.ofCapacity, Phase.carried]
  have nobody : (initial capacity : SharedPool α n).count Phase.hasEmptySlot = 0 := by
    simp [count, initial, Phase.hasEmptySlot]
  refine ⟨Nat.zero_le _, ?_, ?_, ?_, ?_⟩
  · rw [nothing, nobody]
    rfl
  · simp [nothing]
  · simp [nothing]
  · simp [initial]

theorem Sound.of_same_numbers (sound : Sound s) (numbers : u.numbers = s.numbers)
    (made : u.made = s.made) (gone : u.gone = s.gone)
    (within : u.pool.created ≤ u.pool.capacity)
    (balanced : u.pool.created = s.numbers.card + u.count Phase.hasEmptySlot) : Sound u := by
  refine ⟨within, ?_, ?_, ?_, ?_⟩
  all_goals rw [numbers]
  · exact balanced
  · exact sound.distinct
  · rw [made]
    exact sound.fresh
  · rw [made, gone]
    exact sound.spent

theorem Sound.of_filled (sound : Sound s) (numbers : u.numbers = s.made ::ₘ s.numbers)
    (made : u.made = s.made + 1) (gone : u.gone = s.gone)
    (within : u.pool.created ≤ u.pool.capacity)
    (balanced : u.pool.created = s.numbers.card + 1 + u.count Phase.hasEmptySlot) : Sound u := by
  refine ⟨within, ?_, ?_, ?_, ?_⟩
  · rwa [numbers, Multiset.card_cons]
  · rw [numbers, Multiset.nodup_cons]
    exact ⟨fun member => Nat.lt_irrefl _ (sound.fresh _ member), sound.distinct⟩
  · intro k member
    rw [numbers, Multiset.mem_cons] at member
    rcases member with rfl | old
    · omega
    · have := sound.fresh k old
      omega
  · intro k member
    rw [gone] at member
    obtain ⟨small, absent⟩ := sound.spent k member
    refine ⟨by omega, ?_⟩
    rw [numbers, Multiset.mem_cons, not_or]
    exact ⟨Nat.ne_of_lt small, absent⟩

theorem Sound.of_emptied (sound : Sound s) {k : Nat} (numbers : s.numbers = k ::ₘ u.numbers)
    (made : u.made = s.made) (gone : u.gone = k :: s.gone)
    (within : u.pool.created ≤ u.pool.capacity)
    (balanced : u.pool.created = u.numbers.card + u.count Phase.hasEmptySlot) : Sound u := by
  obtain ⟨-, -, distinct, fresh, spent⟩ := sound
  rw [numbers] at distinct fresh spent
  obtain ⟨absent, distinct⟩ := Multiset.nodup_cons.1 distinct
  refine ⟨within, balanced, distinct, ?_, ?_⟩
  all_goals rw [made]
  · exact fun j member => fresh j (Multiset.mem_cons_of_mem member)
  · intro j member
    rw [gone, List.mem_cons] at member
    rcases member with rfl | old
    · exact ⟨fresh j (Multiset.mem_cons_self _ _), absent⟩
    · exact ⟨(spent j old).1, fun member => (spent j old).2 (Multiset.mem_cons_of_mem member)⟩

theorem sound_step (sound : Sound s) (next : Step t s u) : Sound u := by
  have capacity := capacity_step next
  have within := sound.within
  have balanced := sound.balanced
  cases flow_step next with
  | moved items created empty made gone =>
    have numbers : u.numbers = s.numbers := congrArg (Multiset.map Item.number) items
    exact sound.of_same_numbers numbers made gone (by omega) (by omega)
  | reserved room items created empty made gone =>
    have numbers : u.numbers = s.numbers := congrArg (Multiset.map Item.number) items
    exact sound.of_same_numbers numbers made gone (by omega) (by omega)
  | givenUp items created empty made gone =>
    have numbers : u.numbers = s.numbers := congrArg (Multiset.map Item.number) items
    exact sound.of_same_numbers numbers made gone (by omega) (by omega)
  | changed item content others before after created empty made gone =>
    have numbers : u.numbers = s.numbers := by
      rw [SharedPool.numbers, SharedPool.numbers, before, after, Multiset.map_cons,
        Multiset.map_cons]
    exact sound.of_same_numbers numbers made gone (by omega) (by omega)
  | filled content items created empty made gone =>
    have numbers : u.numbers = s.made ::ₘ s.numbers := by
      rw [SharedPool.numbers, items, Multiset.map_cons, SharedPool.numbers]
    exact sound.of_filled numbers made gone (by omega) (by omega)
  | emptied item items created empty made gone =>
    have numbers : s.numbers = item.number ::ₘ u.numbers := by
      rw [SharedPool.numbers, items, Multiset.map_cons, SharedPool.numbers]
    have card : s.numbers.card = u.numbers.card + 1 := by rw [numbers, Multiset.card_cons]
    exact sound.of_emptied numbers made gone (by omega) (by omega)

theorem sound_run (sound : Sound s) (run : Reaches s u) : Sound u := by
  induction run with
  | refl => exact sound
  | step t before next ih => exact sound_step ih next

theorem capacity_run (run : Reaches s u) : u.pool.capacity = s.pool.capacity := by
  induction run with
  | refl => rfl
  | step t before next ih => exact (capacity_step next).trans ih

theorem gone_step (next : Step t s u) {k : Nat} (gone : k ∈ s.gone) : k ∈ u.gone := by
  cases flow_step next with
  | emptied item items created empty made now => rw [now]; exact List.mem_cons_of_mem _ gone
  | moved _ _ _ _ now | reserved _ _ _ _ _ now | filled _ _ _ _ _ now | changed _ _ _ _ _ _ _ _ now
  | givenUp _ _ _ _ now =>
    rw [now]
    exact gone

theorem gone_run (run : Reaches s u) {k : Nat} (gone : k ∈ s.gone) : k ∈ u.gone := by
  induction run with
  | refl => exact gone
  | step t before next ih => exact gone_step next ih

-- In the pool, or on its way there.
def Shelved (s : SharedPool α n) (item : Item α) : Prop :=
  item ∈ s.pool.idle ∨ ∃ t, s.phase t = .returning item

theorem returning_of_step {item : Item α} (next : Step t s u) (returns : u.phase t = .returning item) :
    item ∈ s.held t := by
  cases next with
  | release before after other h holds =>
    have same : other = item := by simpa [enter] using returns
    rw [holds, ← same]
    exact List.mem_append_right _ List.mem_cons_self
  | _ => simp_all [enter, give, setHeld]

theorem phase_other {v : Fin n} (next : Step t s u) (other : v ≠ t) :
    u.phase v = s.phase v ∨ ∃ timed, s.phase v = .waiting timed ∧ u.phase v = .woken timed := by
  cases next with
  | wake w timed h waits =>
    by_cases woken : v = w
    · subst woken
      exact .inr ⟨timed, waits, by simp [enter, other]⟩
    · exact .inl (by simp [enter, other, woken])
  | _ => exact .inl (by simp [enter, setHeld, give, other])

theorem shelved_step {item : Item α} (next : Step t s u) (shelved : s.Shelved item) :
    u.Shelved item ∨ item ∈ s.pool.idle ∧ u.held t = item :: s.held t := by
  rcases shelved with idle | ⟨v, returns⟩
  · cases next with
    | take isLate other rest h is =>
      rw [is] at idle
      rcases List.mem_cons.1 idle with rfl | behind
      · exact .inr ⟨is ▸ List.mem_cons_self, by simp [enter, give, setHeld]⟩
      · exact .inl (.inl behind)
    | putBack other h => exact .inl (.inl (List.mem_cons_of_mem _ idle))
    | _ => exact .inl (.inl idle)
  · by_cases same : v = t
    · subst same
      cases next with
      | putBack other h =>
        rw [returns] at h
        cases h
        exact .inl (.inl List.mem_cons_self)
      | _ => simp_all [Phase.looks?]
    · rcases phase_other next same with stays | ⟨timed, waits, -⟩
      · exact .inl (.inr ⟨v, stays.trans returns⟩)
      · simp [returns] at waits

theorem shelved_run {item : Item α} (shelved : s.Shelved item) (run : Reaches s u) :
    u.Shelved item ∨ ∃ t v w, Reaches s v ∧ v.Shelved item ∧ Step t v w ∧
      w.held t = item :: v.held t ∧ Reaches w u := by
  induction run with
  | refl => exact .inl shelved
  | step t before next ih =>
    rcases ih with still | ⟨v, w, x, first, there, handed, given, rest⟩
    · rcases shelved_step next still with after | ⟨-, given⟩
      · exact .inl after
      · exact .inr ⟨t, _, _, before, still, next, given, .refl _⟩
    · exact .inr ⟨v, w, x, first, there, handed, given, .step t rest next⟩

-- The others have changed the number of instances by so many since.
inductive Asking (t : Fin n) (s : SharedPool α n) : Int → SharedPool α n → Prop
  | ask (timed : Bool) (h : s.phase t = .outside) : Asking t s 0 (s.enter t (.looking timed))
  | own {others : Int} {u v : SharedPool α n} (before : Asking t s others u)
      (busy : u.phase t ≠ .outside) (next : Step t u v) (nothing : v.held t = u.held t) :
    Asking t s others v
  | other {others : Int} {u v : SharedPool α n} {w : Fin n} (before : Asking t s others u)
      (differs : w ≠ t) (next : Step w u v) :
    Asking t s (others + (v.pool.created - u.pool.created)) v

theorem Asking.reaches {others : Int} (asking : Asking t s others u) : Reaches s u := by
  induction asking with
  | ask timed h => exact .step t (.refl s) (.ask s timed h)
  | own before busy next nothing ih => exact .step t ih next
  | other before differs next ih => exact .step _ ih next

namespace Phase

-- Where a thread may be that has asked and has not been given anything.
def asks : Phase α → Bool
  | returning _ => false
  | _ => true

def emptySlots (p : Phase α) : Nat := p.hasEmptySlot.toNat

end Phase

theorem asking_step (sound : Sound s) (asks : (s.phase t).asks = true)
    (busy : s.phase t ≠ .outside) (next : Step t s u) (nothing : u.held t = s.held t) :
    u.pool.idle = s.pool.idle ∧ (u.phase t).asks = true ∧
      u.pool.created + (s.phase t).emptySlots = s.pool.created + (u.phase t).emptySlots := by
  cases next with
  | take isLate item rest h idle => simp [enter, give, setHeld] at nothing
  | make content h => simp [enter, give, setHeld] at nothing
  | reserve isLate h idle room =>
    have before := Phase.hasEmptySlot_of_looks h
    refine ⟨rfl, by simp [enter, Phase.asks], ?_⟩
    rw [Phase.emptySlots, before]
    simp [enter, Phase.emptySlots, Phase.hasEmptySlot]
  | wait h idle full =>
    have before := Phase.hasEmptySlot_of_looks h
    refine ⟨rfl, by simp [enter, Phase.asks], ?_⟩
    rw [Phase.emptySlots, before]
    simp [enter, Phase.emptySlots, Phase.hasEmptySlot]
  | refuse h idle full =>
    have before := Phase.hasEmptySlot_of_looks h
    refine ⟨rfl, by simp [enter, Phase.asks], ?_⟩
    rw [Phase.emptySlots, before]
    simp [enter, Phase.emptySlots, Phase.hasEmptySlot]
  | forget h =>
    -- the slot is counted, so there is one to take away
    have reserved : 0 < s.count Phase.hasEmptySlot := count_pos_iff.2 ⟨t, by rw [h]; rfl⟩
    have balanced := sound.balanced
    refine ⟨rfl, by simp [enter, Phase.asks], ?_⟩
    simp only [enter, Pool.discard, h, Phase.emptySlots, Phase.hasEmptySlot, if_true,
      Bool.toNat_true, Bool.toNat_false]
    omega
  | putBack item h => simp [h, Phase.asks] at asks
  | change | pass | release | discard => exact absurd ‹s.phase t = .outside› busy
  | ask timed h | expire h | stir timed h | fail h | wake v timed h | wakeNone h =>
    simp [enter, h, Phase.emptySlots, Phase.hasEmptySlot, Phase.asks]

theorem asking_run (sound : Sound s) {others : Int} (asking : Asking t s others u) :
    (u.phase t).asks = true ∧
      (u.pool.created : Int) = s.pool.created + others + (u.phase t).emptySlots := by
  induction asking with
  | ask timed h => simp [enter, Phase.asks, Phase.emptySlots, Phase.hasEmptySlot]
  | own before busy next nothing ih =>
    obtain ⟨-, asks, same⟩ :=
      asking_step (sound_run sound before.reaches) ih.1 busy next nothing
    exact ⟨asks, by omega⟩
  | other before differs next ih =>
    rcases phase_other next differs.symm with stays | ⟨timed, waits, woken⟩
    · rw [stays]
      exact ⟨ih.1, by omega⟩
    · rw [waits] at ih
      rw [woken]
      simp only [Phase.asks, Phase.emptySlots, Phase.hasEmptySlot, Bool.toNat_false] at ih ⊢
      exact ⟨trivial, by omega⟩

theorem full_of_refusal (sound : Sound s) (next : Step t s u) (refused : u.refusals ≠ s.refusals) :
    s.pool.idle = [] ∧ s.pool.created = s.pool.capacity := by
  cases next with
  | refuse h idle full => exact ⟨idle, Nat.le_antisymm sound.within full⟩
  | _ => exact absurd rfl refused

-- Each step moves instances about or has to do with one slot.
theorem slots_conserved (capacity : Nat) (reached : Reaches (initial capacity) s) :
    s.pool.capacity = max capacity 1 ∧ s.pool.created ≤ s.pool.capacity ∧
    s.pool.created = s.pool.idle.length + ∑ t, (s.held t).length + s.count Phase.isReturning +
      s.count Phase.isMaking + s.count Phase.isForgetting ∧
    (s.items.map Item.number).Nodup ∧
    (∀ k ∈ s.gone, ∀ u, Reaches s u → k ∉ u.items.map Item.number) ∧
    (∀ t u item, Step t s u → u.phase t = .returning item → item ∈ s.held t) ∧
    (∀ item, s.Shelved item → ∀ u, Reaches s u → u.Shelved item ∨
      ∃ t v w, Reaches s v ∧ v.Shelved item ∧ Step t v w ∧ w.held t = item :: v.held t ∧
        Reaches w u) ∧
    (∀ t others u, Asking t s others u →
      (u.phase t = .outside → (u.pool.created : Int) = s.pool.created + others) ∧
      ∀ v, u.phase t ≠ .outside → Step t u v → v.held t = u.held t →
        v.pool.idle = u.pool.idle) ∧
    (∀ t, s.phase t = .forgetting → s.pool.discard.created + 1 = s.pool.created) ∧
    ∀ t u, Step t s u → u.refusals ≠ s.refusals →
      s.pool.idle = [] ∧ s.pool.created = s.pool.capacity := by
  have sound := sound_run (sound_initial capacity) reached
  have balanced := sound.balanced
  refine ⟨capacity_run reached, sound.within, ?balance, sound.distinct, ?gone, ?returned, ?shelved,
    ?asking, ?forgetting, fun t u => full_of_refusal sound⟩
  case balance =>
    rw [numbers, Multiset.card_map, card_items, emptySlots_eq] at balanced
    omega
  case gone =>
    intro k thrown u run
    exact ((sound_run sound run).spent k (gone_run run thrown)).2
  case returned => exact fun t u item next => returning_of_step next
  case shelved => exact fun item shelved u => shelved_run shelved
  case asking =>
    intro t others u asking
    obtain ⟨asks, same⟩ := asking_run sound asking
    constructor
    · intro outside
      rw [outside] at same
      simpa [Phase.emptySlots, Phase.hasEmptySlot] using same
    · intro v busy next nothing
      exact (asking_step (sound_run sound asking.reaches) asks busy next nothing).1
  case forgetting =>
    intro t forgets
    have counted : 0 < s.count Phase.hasEmptySlot := count_pos_iff.2 ⟨t, by rw [forgets]; rfl⟩
    change s.pool.created - 1 + 1 = s.pool.created
    omega

end

theorem only_instance_thrown_away :
    ∃ s : SharedPool Nat 2, Reaches (initial 0) s ∧ s.refusals = [1] ∧ s.gone = [0] ∧
      s.phase 0 = .forgetting ∧ s.pool.created ≤ s.pool.capacity ∧
      s.pool.discard.created + 1 = s.pool.created ∧
      ∀ u, Reaches s u → 0 ∉ u.items.map Item.number := by
  have run := Reaches.refl (initial 0 : SharedPool Nat 2)
  have run := run.step 0 (.ask _ false rfl)
  have run := run.step 0 (.reserve _ false rfl rfl (by decide))
  have run := run.step 0 (.make _ 7 rfl)
  have run := run.step 1 (.ask _ true rfl)
  have run := run.step 1 (.wait _ rfl rfl (by decide))
  have run := run.step 1 (.expire _ rfl)
  have run := run.step 1 (.refuse _ rfl rfl (by decide))
  have run := run.step 0 (.discard _ [] [] ⟨0, 7⟩ rfl rfl)
  obtain ⟨-, within, -, -, gone, -, -, -, forgetting, -⟩ := slots_conserved 0 run
  exact ⟨_, run, rfl, rfl, rfl, within, forgetting 0 rfl, gone 0 List.mem_cons_self⟩

end CallGuard.SharedPool
