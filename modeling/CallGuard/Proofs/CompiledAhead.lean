import CallGuard.Proofs.CachedRules
import CallGuard.Proofs.CatalogEntries
import CallGuard.Proofs.Halting
import Mathlib

set_option autoImplicit false

namespace CallGuard

variable {P S ε : Type}

namespace Catalog

theorem mem_distinctExpressions_iff (c : Catalog) (text : String) :
    text ∈ c.distinctExpressions ↔
      ∃ method set, c.lookup? method = some set ∧ set.isAllowAll = false ∧ text ∈ set.rules := by
  have key (entries : List (String × Unit)) : text ∈ (Keyed.ofList entries).keys ↔
      text ∈ entries.map Prod.fst := by
    rw [← Keyed.get?_isSome_iff, Keyed.get?_ofList, List.lookup_isSome_iff]
    simp
  have entry (set : RuleSet) : set ∈ c.methods.values ↔ ∃ method, c.lookup? method = some set := by
    simp [Keyed.values, lookup?, ← Keyed.mem_entries_iff]
  simp only [distinctExpressions, key, List.map_flatMap, List.map_map, List.mem_flatMap,
    List.mem_filter, entry]
  simp only [Function.comp_def, List.map_id_fun', id_eq, Bool.not_eq_eq_eq_not, Bool.not_true]
  constructor
  · rintro ⟨set, ⟨⟨method, known⟩, plain⟩, rule⟩
    exact ⟨method, set, known, plain, rule⟩
  · rintro ⟨method, set, known, plain, rule⟩
    exact ⟨set, ⟨⟨method, known⟩, plain⟩, rule⟩

theorem distinctExpressions_ordered (c : Catalog) : c.distinctExpressions.Pairwise (· < ·) :=
  Keyed.keys_ordered _

theorem distinctExpressions_nodup (c : Catalog) : c.distinctExpressions.Nodup :=
  c.distinctExpressions_ordered.imp fun less => Std.ne_of_lt less

theorem trim_of_mem_distinctExpressions {c : Catalog} {text : String}
    (member : text ∈ c.distinctExpressions) : Text.trim text ≠ "*" ∧ Text.trim text ≠ "" := by
  obtain ⟨method, ⟨rules⟩, known, plain, rule⟩ := (c.mem_distinctExpressions_iff text).1 member
  have entry : (method, ⟨rules⟩) ∈ c.methods.entries := (c.methods.mem_entries_iff _ _).2 known
  have fine : entryFault? method ⟨rules⟩ = none := c.valid (method, ⟨rules⟩) entry
  have sound : Sound method rules := (entryFault?_eq_none_iff method ⟨rules⟩).1 fine
  have present := sound.present text rule
  refine ⟨fun star => ?_, present⟩
  have alone : rules = [text] := sound.alone text rule star
  have allowsAll : RuleSet.isAllowAll ⟨rules⟩ = true :=
    (RuleAuthorizer.isAllowAll_iff _).2 ⟨text, by rw [alone], star⟩
  exact Bool.false_ne_true (plain.symm.trans allowsAll)

end Catalog

namespace ProgramCache

theorem getOrCompile_error {c : ProgramCache P} {compile : String → Except ε P} {text : String}
    {e : ε} (coherent : c.Coherent compile) (fails : compile text = .error e) :
    c.getOrCompile text compile = (.error e, c) := by
  cases found : c.get? text with
  | some program => simp [coherent text program found] at fails
  | none => exact getOrCompile_of_failure found fails

theorem get?_getOrCompile (c : ProgramCache P) {compile : String → Except ε P} {text : String}
    {program : P} (compiles : compile text = .ok program) {other : String}
    (known : other = text ∨ (c.get? other).isSome) :
    ((c.getOrCompile text compile).2.get? other).isSome := by
  cases found : c.get? text with
  | some cached =>
    rw [getOrCompile_of_present found]
    rcases known with rfl | known
    · simp [found]
    · exact known
  | none =>
    rw [getOrCompile_of_absent found compiles, get?_store, get?_countCompile]
    split
    · rfl
    · exact known.resolve_left ‹_›

theorem getOrCompile_cached {c : ProgramCache P} {compile : String → Except ε P} {text : String}
    (coherent : c.Coherent compile) (cached : (c.get? text).isSome) :
    ∃ program, compile text = .ok program ∧
      c.getOrCompile text compile = (.ok program, c.countHit) := by
  obtain ⟨program, found⟩ := Option.isSome_iff_exists.1 cached
  exact ⟨program, coherent text program found, getOrCompile_of_present found compile⟩

end ProgramCache

def Evaluator.AgreeAt (text : String) (ev other : Evaluator P S) : Prop :=
  ev.compile text = other.compile text ∧
    ∀ program c state, ev.execute program text c state = other.execute program text c state

def Evaluator.RunsCompiled (ev : Evaluator P S) : Prop :=
  ∀ program text c state expression reason,
    (ev.execute program text c state).1 ≠ .fail (.compile expression reason)

theorem Cel.evaluator_runsCompiled [Regex.Engine] : Cel.evaluator.RunsCompiled := by
  intro program text c state expression reason failed
  cases Cel.run_halts failed with
  | error running => cases running

theorem Lua.evaluatorOf_runsCompiled {options : Lua.Options}
    {ev : Evaluator Lua.Chunk (Pool Lua.State)} {pool : Pool Lua.State}
    (made : Lua.evaluatorOf options = .ok (ev, pool)) : ev.RunsCompiled := by
  intro program text c pool expression reason failed
  obtain ⟨⟨state, fresh⟩, rfl, -⟩ := Lua.evaluatorOf_eq_ok made
  cases Lua.execute_halts fresh failed with
  | error running => cases running

namespace RuleAuthorizer

variable {a b : RuleAuthorizer P S}

theorem run_of_coherent (coherent : a.cache.Coherent a.evaluator.compile) (rule : String)
    (c : Context) :
    ∃ cache, cache.Coherent a.evaluator.compile ∧
      a.run rule c = match a.evaluator.compile rule with
        | .error e => (.fail e, { a with cache })
        | .ok program =>
          match a.evaluator.execute program rule c a.state with
          | (result, state) => (result, { a with cache, state }) := by
  have compiled := ProgramCache.getOrCompile_eq_compile coherent rule
  have kept := ProgramCache.getOrCompile_coherent coherent rule
  rcases found : a.cache.getOrCompile rule a.evaluator.compile with ⟨result, cache⟩
  simp only [found] at compiled kept
  refine ⟨cache, kept, ?_⟩
  rw [run, program, found, ← compiled]
  cases result <;> rfl

theorem run_parts (a : RuleAuthorizer P S) (rule : String) (c : Context) :
    SameParts a (a.run rule c).2 := by
  rw [run, program]
  rcases a.cache.getOrCompile rule a.evaluator.compile with ⟨_ | _, _⟩ <;> exact SameParts.refl a

theorem runRules_parts (c : Context) (index : Nat) (rules : List String) (a : RuleAuthorizer P S) :
    SameParts a (runRules c index rules a).2 := by
  induction rules generalizing index a with
  | nil => exact SameParts.refl a
  | cons rule rest ih =>
    have parts := a.run_parts rule c
    rw [runRules]
    split <;> rename_i ran <;> rw [ran] at parts
    · exact parts
    · exact parts
    · exact parts.trans (ih (index + 1) _)

theorem compileAll_parts (texts : List String) (count : Nat) (a : RuleAuthorizer P S) :
    SameParts a (compileAll texts count a).2 := by
  induction texts generalizing count a with
  | nil => exact SameParts.refl a
  | cons text rest ih =>
    have parts : SameParts a (a.program text).2 := SameParts.refl a
    rw [compileAll]
    split <;> rename_i asked <;> rw [asked] at parts
    · exact parts
    · exact parts.trans (ih (count + 1) _)

theorem precompile_evaluator (a : RuleAuthorizer P S) :
    a.precompile.2.evaluator = a.evaluator :=
  (compileAll_parts _ 0 a).2.1.symm

theorem serve_parts (a : RuleAuthorizer P S) (request : Request) : SameParts a (a.serve request) := by
  cases request with
  | precompile => exact compileAll_parts _ 0 a
  | authorize c =>
    rw [serve, authorize]
    split
    · exact SameParts.refl a
    · split
      · exact SameParts.refl a
      · exact runRules_parts c 0 _ a

theorem after_parts (a : RuleAuthorizer P S) (history : List Request) :
    SameParts a (a.after history) := by
  induction history generalizing a with
  | nil => exact SameParts.refl a
  | cons request rest ih => exact (a.serve_parts request).trans (ih _)

structure Alike (a b : RuleAuthorizer P S) : Prop where
  catalog : a.catalog = b.catalog
  fallback : a.fallback = b.fallback
  state : a.state = b.state
  evaluators : ∀ text ∈ a.catalog.distinctExpressions, a.evaluator.AgreeAt text b.evaluator
  left : a.cache.Coherent a.evaluator.compile
  right : b.cache.Coherent b.evaluator.compile

theorem Alike.run (alike : Alike a b) {rule : String}
    (member : rule ∈ a.catalog.distinctExpressions) (c : Context) :
    (a.run rule c).1 = (b.run rule c).1 ∧ Alike (a.run rule c).2 (b.run rule c).2 := by
  obtain ⟨cache, coherent, ran⟩ := run_of_coherent alike.left rule c
  obtain ⟨cache', coherent', ran'⟩ := run_of_coherent alike.right rule c
  obtain ⟨compiles, executes⟩ := alike.evaluators rule member
  rw [ran, ran', ← compiles]
  cases a.evaluator.compile rule with
  | error e => exact ⟨rfl, { alike with left := coherent, right := coherent' }⟩
  | ok program =>
    simp only [← alike.state, ← executes, true_and]
    exact { alike with state := rfl, left := coherent, right := coherent' }

theorem Alike.runRules (c : Context) (index : Nat) {rules : List String} (alike : Alike a b)
    (within : ∀ rule ∈ rules, rule ∈ a.catalog.distinctExpressions) :
    (runRules c index rules a).1 = (runRules c index rules b).1 ∧
      Alike (runRules c index rules a).2 (runRules c index rules b).2 := by
  induction rules generalizing index a b with
  | nil => exact ⟨rfl, alike⟩
  | cons rule rest ih =>
    obtain ⟨same, after⟩ := alike.run (within rule (by simp)) c
    have catalog : (a.run rule c).2.catalog = a.catalog := (a.run_parts rule c).1.symm
    rcases left : a.run rule c with ⟨outcome, a'⟩
    rcases right : b.run rule c with ⟨outcome', b'⟩
    simp only [left, right] at same after catalog
    subst same
    simp only [RuleAuthorizer.runRules, left, right]
    cases outcome with
    | error halt => exact ⟨rfl, after⟩
    | ok allowed =>
      cases allowed with
      | true => exact ⟨rfl, after⟩
      | false =>
        exact ih (index + 1) after fun r member => catalog ▸ within r (by simp [member])

theorem Alike.authorize (alike : Alike a b) (c : Context) :
    (a.authorize c).1 = (b.authorize c).1 ∧ Alike (a.authorize c).2 (b.authorize c).2 := by
  cases known : a.catalog.lookup? c.method with
  | none =>
    have known' : b.catalog.lookup? c.method = none := alike.catalog ▸ known
    simp only [RuleAuthorizer.authorize, known', alike.catalog, alike.fallback, true_and]
    exact alike
  | some set =>
    have known' : b.catalog.lookup? c.method = some set := alike.catalog ▸ known
    cases plain : set.isAllowAll with
    | true =>
      simp only [RuleAuthorizer.authorize, known, known', plain, if_true, true_and]
      exact alike
    | false =>
      rw [authorize_ruled known plain, authorize_ruled known' plain]
      refine alike.runRules c 0 fun rule member => ?_
      exact (a.catalog.mem_distinctExpressions_iff rule).2 ⟨_, set, known, plain, member⟩

inductive Swept (compile : String → Except Error P) (texts : List String) (count : Nat) :
    Except Error Nat → ProgramCache P → Prop
  | all (cache : ProgramCache P) (compiles : ∀ text ∈ texts, ∃ program, compile text = .ok program)
    (cached : ∀ text ∈ texts, (cache.get? text).isSome) :
    Swept compile texts count (.ok (count + texts.length)) cache
  | stopped (cache : ProgramCache P) (before : List String) (text : String) (rest : List String)
    (e : Error) (parts : texts = before ++ text :: rest)
    (compiles : ∀ earlier ∈ before, ∃ program, compile earlier = .ok program)
    (fails : compile text = .error e) :
    Swept compile texts count (.error e) cache

theorem compileAll_swept (texts : List String) (count : Nat)
    (coherent : a.cache.Coherent a.evaluator.compile) :
    ∃ result cache, compileAll texts count a = (result, { a with cache }) ∧
      cache.Coherent a.evaluator.compile ∧
      (∀ text, (a.cache.get? text).isSome → (cache.get? text).isSome) ∧
      Swept a.evaluator.compile texts count result cache := by
  induction texts generalizing count a with
  | nil => exact ⟨_, a.cache, rfl, coherent, fun _ known => known, .all _ (by simp) (by simp)⟩
  | cons text rest ih =>
    cases compiled : a.evaluator.compile text with
    | error e =>
      have asked := ProgramCache.getOrCompile_error coherent compiled
      refine ⟨.error e, a.cache, ?_, coherent, fun _ known => known,
        .stopped _ [] text rest e rfl (by simp) compiled⟩
      simp [compileAll, program, asked]
    | ok p =>
      have answer := ProgramCache.getOrCompile_eq_compile coherent text
      have kept := ProgramCache.getOrCompile_coherent coherent text
      have known (other : String) (had : other = text ∨ (a.cache.get? other).isSome) :=
        a.cache.get?_getOrCompile compiled had
      rcases found : a.cache.getOrCompile text a.evaluator.compile with ⟨result, cache⟩
      simp only [found] at answer kept known
      obtain ⟨result', cache', swept, kept', grown, ends⟩ :=
        ih (count + 1) (a := { a with cache }) kept
      have unfolded : compileAll (text :: rest) count a = (result', { a with cache := cache' }) := by
        rw [compileAll, program, found, answer, compiled]
        exact swept
      refine ⟨result', cache', unfolded, kept',
        fun other had => grown other (known other (.inr had)), ?_⟩
      cases ends with
      | all _ compiles cached =>
        have length : count + (text :: rest).length = count + 1 + rest.length := by
          simp only [List.length_cons]
          omega
        rw [← length]
        refine .all _ ?_ ?_
        · simpa [compiled] using compiles
        · simpa using And.intro (grown text (known text (.inl rfl))) cached
      | stopped _ before failing later e parts compiles fails =>
        refine .stopped _ (text :: before) failing later e (by rw [parts]; rfl) ?_ fails
        simpa [compiled] using compiles

theorem Alike.refl (coherent : a.cache.Coherent a.evaluator.compile) : Alike a a :=
  ⟨rfl, rfl, rfl, fun _ _ => ⟨rfl, fun _ _ _ => rfl⟩, coherent, coherent⟩

theorem Alike.symm (alike : Alike a b) : Alike b a where
  catalog := alike.catalog.symm
  fallback := alike.fallback.symm
  state := alike.state.symm
  evaluators text member :=
    have ⟨compiles, executes⟩ := alike.evaluators text (alike.catalog ▸ member)
    ⟨compiles.symm, fun program c state => (executes program c state).symm⟩
  left := alike.right
  right := alike.left

theorem Alike.precompile (alike : Alike a b) : Alike a.precompile.2 b := by
  obtain ⟨_, cache, swept, coherent, -⟩ := compileAll_swept a.catalog.distinctExpressions 0 alike.left
  rw [RuleAuthorizer.precompile, swept]
  exact { alike with left := coherent }

theorem Alike.after (alike : Alike a b) (history : List Request) :
    Alike (a.after history) (b.after history) := by
  induction history generalizing a b with
  | nil => exact alike
  | cons request rest ih =>
    cases request with
    | authorize c => exact ih (alike.authorize c).2
    | precompile => exact ih alike.precompile.symm.precompile.symm

def Request.isCall : Request → Bool
  | .authorize _ => true
  | .precompile => false

theorem Alike.after_calls (alike : Alike a b) (history : List Request) :
    Alike (a.after history) (b.after (history.filter Request.isCall)) := by
  induction history generalizing a b with
  | nil => exact alike
  | cons request rest ih =>
    cases request with
    | authorize c => exact ih (alike.authorize c).2
    | precompile => exact ih alike.precompile

theorem ofParts_alike (catalog : Catalog) (evaluator other : Evaluator P S) (state : S)
    (fallback : Fallback)
    (agree : ∀ text ∈ catalog.distinctExpressions, evaluator.AgreeAt text other) :
    Alike (ofParts catalog evaluator state fallback) (ofParts catalog other state fallback) :=
  ⟨rfl, rfl, rfl, agree, ProgramCache.empty_coherent _ _, ProgramCache.empty_coherent _ _⟩

def Raises (a : RuleAuthorizer P S) (c : Context) (halt : Halt) : Prop :=
  ∃ text ∈ a.catalog.distinctExpressions, ∃ program state,
    a.evaluator.compile text = .ok program ∧
      (a.evaluator.execute program text c state).1 = .error halt

structure Warm (a : RuleAuthorizer P S) : Prop where
  coherent : a.cache.Coherent a.evaluator.compile
  cached : ∀ text ∈ a.catalog.distinctExpressions, (a.cache.get? text).isSome

-- Only hits are counted, and the evaluator is in a state of its own.
structure Reused (a b : RuleAuthorizer P S) : Prop where
  parts : SameParts a b
  cache : ∃ hits, b.cache = { a.cache with hits }

theorem Reused.refl (a : RuleAuthorizer P S) : Reused a a := ⟨SameParts.refl a, _, rfl⟩

theorem Reused.trans {c : RuleAuthorizer P S} (ab : Reused a b) (bc : Reused b c) : Reused a c := by
  obtain ⟨first, left⟩ := ab.cache
  obtain ⟨second, right⟩ := bc.cache
  exact ⟨ab.parts.trans bc.parts, second, by rw [right, left]⟩

theorem Warm.reused (warm : Warm a) (reused : Reused a b) : Warm b := by
  obtain ⟨⟨catalog, evaluator, -⟩, hits, cache⟩ := reused
  constructor
  · rw [cache, ← evaluator]
    exact warm.coherent
  · rw [cache, ← catalog]
    exact warm.cached

theorem Raises.reused {c : Context} {halt : Halt} (reused : Reused a b) (raises : Raises b c halt) :
    Raises a c halt := by
  obtain ⟨⟨catalog, evaluator, -⟩, -⟩ := reused
  rw [Raises, catalog, evaluator]
  exact raises

theorem Warm.run (warm : Warm a) {rule : String} (member : rule ∈ a.catalog.distinctExpressions)
    (c : Context) :
    Reused a (a.run rule c).2 ∧ ∀ halt, (a.run rule c).1 = .error halt → Raises a c halt := by
  obtain ⟨p, compiles, found⟩ :=
    ProgramCache.getOrCompile_cached warm.coherent (warm.cached rule member)
  rw [RuleAuthorizer.run, program, found]
  exact ⟨⟨⟨rfl, rfl, rfl⟩, _, rfl⟩, fun halt failed => ⟨rule, member, p, _, compiles, failed⟩⟩

theorem Warm.runRules (c : Context) (index : Nat) {rules : List String} (warm : Warm a)
    (within : ∀ rule ∈ rules, rule ∈ a.catalog.distinctExpressions) :
    Reused a (runRules c index rules a).2 ∧
      ∀ halt, (runRules c index rules a).1 = .error halt → Raises a c halt := by
  induction rules generalizing index a with
  | nil => exact ⟨Reused.refl a, by simp [RuleAuthorizer.runRules]⟩
  | cons rule rest ih =>
    obtain ⟨reused, raised⟩ := warm.run (within rule (by simp)) c
    rcases ran : a.run rule c with ⟨outcome, a'⟩
    simp only [ran] at reused raised
    simp only [RuleAuthorizer.runRules, ran]
    cases outcome with
    | error halt =>
      refine ⟨reused, fun other same => raised other ?_⟩
      simpa using same
    | ok allowed =>
      cases allowed with
      | true => exact ⟨reused, by simp⟩
      | false =>
        have later := ih (index + 1) (warm.reused reused)
          fun r member => reused.parts.1 ▸ within r (by simp [member])
        exact ⟨reused.trans later.1, fun halt failed => .reused reused (later.2 halt failed)⟩

theorem Warm.authorize (warm : Warm a) (c : Context) :
    Reused a (a.authorize c).2 ∧ ∀ halt, (a.authorize c).1 = .error halt → Raises a c halt := by
  cases known : a.catalog.lookup? c.method with
  | none => simp [RuleAuthorizer.authorize, known, Reused.refl]
  | some set =>
    cases plain : set.isAllowAll with
    | true => simp [RuleAuthorizer.authorize, known, plain, Reused.refl]
    | false =>
      rw [authorize_ruled known plain]
      refine warm.runRules c 0 fun rule member => ?_
      exact (a.catalog.mem_distinctExpressions_iff rule).2 ⟨_, set, known, plain, member⟩

theorem Warm.after_calls (warm : Warm a) (calls : List Context) :
    Reused a (a.after (calls.map .authorize)) := by
  induction calls generalizing a with
  | nil => exact Reused.refl a
  | cons c rest ih =>
    have reused := (warm.authorize c).1
    exact reused.trans (ih (warm.reused reused))

structure Settled (compiled never : RuleAuthorizer P S) : Prop where
  same : ∀ (calls : List Context) (c : Context),
    ((compiled.after (calls.map .authorize)).authorize c).1 =
      ((never.after (calls.map .authorize)).authorize c).1
  compiles : ∀ calls : List Context,
    (compiled.after (calls.map .authorize)).stats.compiles = compiled.stats.compiles
  entries : ∀ calls : List Context,
    (compiled.after (calls.map .authorize)).stats.entries = compiled.stats.entries
  raised : ∀ (calls : List Context) (c : Context) (halt : Halt),
    ((compiled.after (calls.map .authorize)).authorize c).1 = .error halt → Raises compiled c halt

def ReportsNoCompiling (a : RuleAuthorizer P S) : Prop :=
  ∀ (calls : List Context) (c : Context) (expression : String) (reason : Message),
    ((a.after (calls.map .authorize)).authorize c).1 ≠ .fail (.compile expression reason)

theorem Settled.reportsNoCompiling (settled : Settled a b) (runs : a.evaluator.RunsCompiled) :
    a.ReportsNoCompiling := by
  intro calls c expression reason failed
  obtain ⟨text, -, program, state, -, reported⟩ := settled.raised calls c _ failed
  exact runs program text c state expression reason reported

theorem settled_of_warm (warm : Warm a) (alike : Alike a b) : Settled a b where
  same calls c := ((alike.after (calls.map .authorize)).authorize c).1
  compiles calls := by
    obtain ⟨hits, cache⟩ := (warm.after_calls calls).cache
    rw [stats, cache]
    rfl
  entries calls := by
    obtain ⟨hits, cache⟩ := (warm.after_calls calls).cache
    rw [stats, cache]
    rfl
  raised calls c halt failed := by
    have reused := warm.after_calls calls
    exact .reused reused (((warm.reused reused).authorize c).2 halt failed)

theorem Alike.settled (alike : Alike a b) {n : Nat} (done : a.precompile.1 = .ok n) :
    n = a.catalog.distinctExpressions.length ∧ Settled a.precompile.2 b := by
  obtain ⟨result, cache, swept, coherent, -, ends⟩ :=
    compileAll_swept a.catalog.distinctExpressions 0 alike.left
  have alike' := alike.precompile
  rw [RuleAuthorizer.precompile, swept] at done alike' ⊢
  cases ends with
  | all _ compiles cached =>
    obtain rfl : 0 + a.catalog.distinctExpressions.length = n := Except.ok.inj done
    exact ⟨Nat.zero_add _, settled_of_warm ⟨coherent, cached⟩ alike'⟩
  | stopped => cases done

theorem precompile_ok (coherent : a.cache.Coherent a.evaluator.compile)
    (all : ∀ text ∈ a.catalog.distinctExpressions, ∃ program, a.evaluator.compile text = .ok program) :
    a.precompile.1 = .ok a.catalog.distinctExpressions.length := by
  obtain ⟨result, cache, swept, -, -, ends⟩ :=
    compileAll_swept a.catalog.distinctExpressions 0 coherent
  rw [precompile, swept]
  cases ends with
  | all _ compiles cached => rw [Nat.zero_add]
  | stopped _ before text rest e parts compiles fails =>
    obtain ⟨program, compiled⟩ := all text (by simp [parts])
    rw [fails] at compiled
    cases compiled

theorem precompile_error (coherent : a.cache.Coherent a.evaluator.compile) {text : String}
    (member : text ∈ a.catalog.distinctExpressions) {e : Error}
    (fails : a.evaluator.compile text = .error e) :
    ∃ least ∈ a.catalog.distinctExpressions, ∃ e, a.evaluator.compile least = .error e ∧
      a.precompile.1 = .error e ∧ ∀ other ∈ a.catalog.distinctExpressions, other < least →
        ∃ program, a.evaluator.compile other = .ok program := by
  obtain ⟨result, cache, swept, -, -, ends⟩ :=
    compileAll_swept a.catalog.distinctExpressions 0 coherent
  cases ends with
  | all _ compiles cached =>
    obtain ⟨program, compiled⟩ := compiles text member
    rw [fails] at compiled
    cases compiled
  | stopped _ before least rest e parts compiles fails =>
    have ordered := a.catalog.distinctExpressions_ordered
    rw [parts] at ordered
    refine ⟨least, by simp [parts], e, fails, by rw [precompile, swept], ?_⟩
    intro other member smaller
    rw [parts, List.mem_append, List.mem_cons] at member
    rcases member with earlier | rfl | later
    · exact compiles other earlier
    · exact absurd smaller (String.lt_irrefl other)
    · have greater := (List.pairwise_cons.1 (List.pairwise_append.1 ordered).2.1).1 other later
      exact absurd (String.lt_trans smaller greater) (String.lt_irrefl other)

-- Both ways through the catalog meet the same texts, so nothing is left to compile.
theorem precompile_settles (catalog : Catalog) (evaluator : Evaluator P S) (fallback : Fallback)
    (state : S) (history : List Request) :
    let texts := catalog.distinctExpressions
    let a := (ofParts catalog evaluator state fallback).after history
    let never := (ofParts catalog evaluator state fallback).after (history.filter Request.isCall)
    (∀ text, text ∈ texts ↔ ∃ method set,
      catalog.lookup? method = some set ∧ set.isAllowAll = false ∧ text ∈ set.rules) ∧
    (∀ text ∈ texts, Text.trim text ≠ "*" ∧ Text.trim text ≠ "") ∧
    (∀ other, (∀ text ∈ texts, evaluator.AgreeAt text other) → ∀ c, (a.authorize c).1 =
      (((ofParts catalog other state fallback).after history).authorize c).1) ∧
    (∀ n, a.precompile.1 = .ok n →
      texts.Nodup ∧ n = texts.length ∧ Settled a.precompile.2 never ∧
        (evaluator.RunsCompiled → a.precompile.2.ReportsNoCompiling)) ∧
    ((∀ text ∈ texts, ∃ program, evaluator.compile text = .ok program) →
      a.precompile.1 = .ok texts.length) ∧
    (∀ text ∈ texts, ∀ e, evaluator.compile text = .error e →
      ∃ least ∈ texts, ∃ e, evaluator.compile least = .error e ∧ a.precompile.1 = .error e ∧
        ∀ smaller ∈ texts, smaller < least →
          ∃ program, evaluator.compile smaller = .ok program) := by
  intro texts a never
  have start := ofParts_alike catalog evaluator evaluator state fallback
    fun _ _ => ⟨rfl, fun _ _ _ => rfl⟩
  have alike : Alike a never := start.after_calls history
  obtain ⟨catalogs, evaluators, -⟩ := (ofParts catalog evaluator state fallback).after_parts history
  change catalog = a.catalog at catalogs
  change evaluator = a.evaluator at evaluators
  refine ⟨catalog.mem_distinctExpressions_iff, fun text => Catalog.trim_of_mem_distinctExpressions,
    ?others, ?settles, ?succeeds, ?fails⟩
  case others =>
    intro other agree c
    have same := (ofParts_alike catalog evaluator other state fallback agree).after history
    exact (same.authorize c).1
  case settles =>
    intro n done
    obtain ⟨counted, settled⟩ := alike.settled done
    rw [← catalogs] at counted
    exact ⟨catalog.distinctExpressions_nodup, counted, settled,
      fun runs => settled.reportsNoCompiling (by rwa [precompile_evaluator, ← evaluators])⟩
  case succeeds =>
    intro all
    have done := precompile_ok alike.left (by rwa [← catalogs, ← evaluators])
    rwa [← catalogs] at done
  case fails =>
    intro text member e failed
    have stopped := precompile_error alike.left (catalogs ▸ member) (evaluators ▸ failed)
    rwa [← catalogs, ← evaluators] at stopped

def openCatalog : Catalog where
  methods := ⟨[("/s.A/m", ⟨["no", "yes", "no"]⟩), ("/s.B/m", ⟨[" * "]⟩)],
    List.pairwise_pair.2 (by decide)⟩
  valid := by decide +kernel

def literalCatalog : Catalog where
  methods := ⟨[("/s.A/m", ⟨["false", "true"]⟩)], List.pairwise_singleton _ _⟩
  valid := by decide +kernel

theorem two_texts_settled :
    let a := ofParts openCatalog wordEvaluator 0 .deny
    let cel := ofParts literalCatalog Cel.evaluator () .deny
    (openCatalog.distinctExpressions = ["no", "yes"] ∧ a.precompile.1 = .ok 2 ∧
      wordEvaluator.compile " * " = .error (.compile " * " .elided) ∧ Settled a.precompile.2 a) ∧
    (cel.precompile.1 = .ok 2 ∧ cel.precompile.2.ReportsNoCompiling) ∧
    ∀ options ev pool, Lua.evaluatorOf options = .ok (ev, pool) →
      let lua := ofParts literalCatalog ev pool .deny
      lua.precompile.1 = .ok 2 ∧ lua.precompile.2.ReportsNoCompiling := by
  have literals : literalCatalog.distinctExpressions = ["false", "true"] := by decide +kernel
  refine ⟨?words, ?cel, ?lua⟩
  case words =>
    have texts : openCatalog.distinctExpressions = ["no", "yes"] := by decide +kernel
    obtain ⟨-, -, -, settles, succeeds, -⟩ := precompile_settles openCatalog wordEvaluator .deny 0 []
    rw [texts] at settles succeeds
    have done := succeeds (by simp [wordEvaluator])
    exact ⟨texts, done, rfl, (settles 2 done).2.2.1⟩
  case cel =>
    obtain ⟨-, -, -, settles, succeeds, -⟩ :=
      precompile_settles literalCatalog Cel.evaluator .deny () []
    rw [literals] at settles succeeds
    have no : Cel.compile "false" = .ok (.literal (.bool false)) := by cbv
    have yes : Cel.compile "true" = .ok (.literal (.bool true)) := by cbv
    have done := succeeds (by simp [Cel.evaluator, no, yes])
    exact ⟨done, (settles 2 done).2.2.2 Cel.evaluator_runsCompiled⟩
  case lua =>
    intro options ev pool made
    obtain ⟨-, -, -, settles, succeeds, -⟩ := precompile_settles literalCatalog ev .deny pool []
    rw [literals] at settles succeeds
    obtain ⟨-, evaluator, -⟩ := Lua.evaluatorOf_eq_ok made
    have no : Lua.compile "false" = .ok [.ret [.paren (.bool false)]] := by cbv
    have yes : Lua.compile "true" = .ok [.ret [.paren (.bool true)]] := by cbv
    have done := succeeds (by simp [evaluator, no, yes])
    exact ⟨done, (settles 2 done).2.2.2 (Lua.evaluatorOf_runsCompiled made)⟩

end RuleAuthorizer

end CallGuard
