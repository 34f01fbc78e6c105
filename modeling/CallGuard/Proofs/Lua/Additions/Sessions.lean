import CallGuard.Proofs.Lua.Additions.Beginning
import CallGuard.Proofs.Lua.Isolation
import CallGuard.Proofs.Lua.Reports
import CallGuard.Proofs.Lua.Views.Reading
import Mathlib

set_option autoImplicit false

namespace CallGuard.Lua

variable {options : Options} {more : Keyed Json} {made made' : State}

def Call.IsSilent (builtins more : Keyed Json) (call : Call) : Prop :=
  ∀ m ∈ Block.mentions call.program,
    m.name ≠ environmentName ∧ ¬ Builtins.Further builtins more m.name

-- Prints nowhere where a table is, in the state that the pool hands out.
def Call.HidesPlaces (options : Options) (pool : Pool State) (call : Call) : Prop :=
  ∀ s, (pool.acquire (State.ofBuiltins options.builtins)).1 = .ok s →
    Machine.NeverMakes (fun n args _ => n.printsPlace args) (.initial s.random)
      (s.start call.program call.context)

def isLate (options : Options) (x : Context) (left : Nat) : Bool :=
  (timeFor options x).any fun ms => stepsFor ms ≤ fuelFor options x - left

theorem runTimed_run {s : State} {call : Call}
    {run : Option Machine.Ending × Nat × Random × Heap}
    (ran : Machine.run (fuelFor options call.context) (.initial s.random)
      (s.start call.program call.context) = run) :
    (runTimed options call.program call.text call.context s).1 =
        outcomeOf call.text (isLate options call.context run.2.1) run.1 ∧
      (runTimed options call.program call.text call.context s).2.2.random = run.2.2.1 := by
  subst ran
  exact ⟨rfl, rfl⟩

theorem outcomeOf_paired {p : Pairing} {ending ending' : Option Machine.Ending}
    (related : Option.Rel (Machine.Ending.Paired p) ending ending') (text : String) (late : Bool) :
    outcomeOf text late ending' = outcomeOf text late ending := by
  cases related with
  | none => rfl
  | some ending =>
    cases ending with
    | same => exact State.outcomeOf_rename text p.move _
    | shown id => simp only [outcomeOf, reasonOf_table]

theorem State.Addition.runTimed_alike {further : String → Prop}
    (c : made.Addition made' further) (sealed : made.Sealed) (sealed' : made'.Sealed)
    {options' : Options} (timeout : options'.timeout = options.timeout)
    (interval : options'.interval = options.interval) {call : Call}
    (silent : ∀ m ∈ Block.mentions call.program, m.name ≠ environmentName ∧ ¬ further m.name)
    (r : Random) (hides : Machine.NeverMakes (fun n args _ => n.printsPlace args) (.initial r)
      (made.start call.program call.context)) :
    ∃ outcome r',
      runTimed options call.program call.text call.context (made.reseed r) =
          (outcome, false, made.reseed r') ∧
        runTimed options' call.program call.text call.context (made'.reseed r) =
          (outcome, false, made'.reseed r') := by
  have lawful := c.pairing_lawful (c.later call.context)
  have alike := c.alike_begin sealed sealed' call.context
  have turn : (made.start call.program call.context).Paired
      (c.pairing (made.globalsAt call.context)) (made'.start call.program call.context) := by
    rw [State.start_eq sealed, State.start_eq sealed']
    exact alike.paired_chunk lawful rfl silent
  have time : timeFor options' call.context = timeFor options call.context := by
    unfold timeFor
    rw [timeout]
  have fuel : fuelFor options' call.context = fuelFor options call.context := by
    unfold fuelFor
    rw [time, interval]
  have late (left : Nat) : isLate options' call.context left = isLate options call.context left := by
    unfold isLate
    rw [time, fuel]
  obtain ⟨related, left, random⟩ := Machine.run_in_step lawful id (fuelFor options call.context)
    (Machine.paired_initial r) turn hides
  obtain ⟨run, ran⟩ : ∃ run, Machine.run (fuelFor options call.context) (.initial r)
    (made.start call.program call.context) = run := ⟨_, rfl⟩
  obtain ⟨run', ran'⟩ : ∃ run', Machine.run (fuelFor options call.context) (.initial r)
    (made'.start call.program call.context) = run' := ⟨_, rfl⟩
  rw [ran, ran'] at related left random
  obtain ⟨first, drawn⟩ := runTimed_run (s := made.reseed r) ran
  obtain ⟨second, drawn'⟩ := runTimed_run (s := made'.reseed r) (fuel ▸ ran')
  obtain ⟨outcome, r₁, result⟩ := runTimed_eq options (State.reseed_sealed sealed r) call
  obtain ⟨outcome', r₂, result'⟩ := runTimed_eq options' (State.reseed_sealed sealed' r) call
  rw [result] at first drawn
  rw [result', late, left, outcomeOf_paired related] at second
  rw [result', random] at drawn'
  have same : outcome' = outcome := second.trans first.symm
  have again : r₂ = r₁ := drawn'.trans drawn.symm
  exact ⟨outcome, r₁, result, same ▸ again ▸ result'⟩

inductive Twins (made made' : State) : Pool State → Pool State → Prop
  | unused (capacity : Nat) (positive : 0 < capacity) :
    Twins made made' ⟨capacity, [], 0, positive⟩ ⟨capacity, [], 0, positive⟩
  | back (capacity : Nat) (positive : 0 < capacity) (r : Random) :
    Twins made made' ⟨capacity, [made.reseed r], 1, positive⟩
      ⟨capacity, [made'.reseed r], 1, positive⟩

def outcomes (E : Evaluator Chunk (Pool State)) : List Call → Pool State → List (Outcome Bool)
  | [], _ => []
  | call :: rest, pool =>
    (E.execute call.program call.text call.context pool).1 ::
      outcomes E rest (E.execute call.program call.text call.context pool).2

def HidePlaces (options : Options) : List Call → Pool State → Prop
  | [], _ => True
  | call :: rest, pool =>
    call.HidesPlaces options pool ∧ HidePlaces options rest (call.execute options pool).2

namespace Twins

variable (options' : Options) {pool pool' : Pool State}
  (started : State.ofBuiltins options.builtins = .ok made)
  (started' : State.ofBuiltins options'.builtins = .ok made')
  (extended : Builtins.Extended options.builtins options'.builtins)
  (timeout : options'.timeout = options.timeout) (interval : options'.interval = options.interval)

include started started' extended timeout interval

theorem execute {call : Call} (silent : call.IsSilent options.builtins options'.builtins)
    (twins : Twins made made' pool pool') (hides : call.HidesPlaces options pool) :
    (call.execute options' pool').1 = (call.execute options pool).1 ∧
      Twins made made' (call.execute options pool).2 (call.execute options' pool').2 := by
  obtain ⟨c⟩ := State.ofBuiltins_addition started started' extended
  have alike := c.runTimed_alike (State.ofBuiltins_sealed started)
    (State.ofBuiltins_sealed started') timeout interval silent
  by_cases late : call.context.deadlinePassed
  · simp only [Call.execute, Lua.execute, late, if_true]
    exact ⟨trivial, twins⟩
  · cases twins with
    | unused capacity positive =>
      have hidden := hides made (by simp [Pool.acquire, positive, started])
      obtain ⟨outcome, r, result, result'⟩ := alike made.random hidden
      have same : made.reseed made.random = made := rfl
      have same' : made'.reseed made.random = made' := c.random ▸ rfl
      rw [same] at result
      rw [same'] at result'
      simp only [Call.execute, Lua.execute, late, Pool.acquire, positive, if_true, if_false,
        started, started', result, result', Bool.false_eq_true]
      exact ⟨trivial, .back capacity positive r⟩
    | back capacity positive r =>
      obtain ⟨outcome, r', result, result'⟩ := alike r (hides (made.reseed r) rfl)
      simp only [Call.execute, Lua.execute, late, Pool.acquire, if_false, result, result',
        Bool.false_eq_true]
      exact ⟨trivial, .back capacity positive r'⟩

theorem same_outcomes {calls : List Call} (twins : Twins made made' pool pool')
    (silent : ∀ call ∈ calls, call.IsSilent options.builtins options'.builtins)
    (hide : HidePlaces options calls pool) :
    outcomes ⟨.lua, compile, Lua.execute options'⟩ calls pool' =
      outcomes ⟨.lua, compile, Lua.execute options⟩ calls pool := by
  induction calls generalizing pool pool' with
  | nil => rfl
  | cons call rest ih =>
    obtain ⟨here, later⟩ := List.forall_mem_cons.1 silent
    obtain ⟨same, next⟩ :=
      twins.execute options' started started' extended timeout interval here hide.1
    exact congrArg₂ List.cons same (ih next later hide.2)

end Twins

theorem further_constants_unseen {E E' : Evaluator Chunk (Pool State)}
    {fresh fresh' : Pool State} (accepted : evaluatorOf options = .ok (E, fresh))
    (accepted' : evaluatorOf { options with builtins := more } = .ok (E', fresh'))
    (extended : Builtins.Extended options.builtins more) {calls : List Call}
    (silent : ∀ call ∈ calls, call.IsSilent options.builtins more)
    (hide : HidePlaces options calls fresh) :
    outcomes E' calls fresh' = outcomes E calls fresh := by
  obtain ⟨⟨made, started⟩, rfl, rfl⟩ := evaluatorOf_eq_ok accepted
  obtain ⟨⟨made', started'⟩, rfl, rfl⟩ := evaluatorOf_eq_ok accepted'
  have unused : Twins made made' (.ofCapacity options.poolSize) (.ofCapacity options.poolSize) :=
    .unused _ _
  exact unused.same_outcomes { options with builtins := more } started started' extended rfl rfl
    silent hide

def hasEntry : String := "local f, s, k = pairs(string)\nreturn f(s, k) ~= nil"

def hasEntryChunk : Chunk := [
  .locals [("f", .regular), ("s", .regular), ("k", .regular)]
    [.call (.name "pairs" 1) [.name "string" 1] 1],
  .ret [.binary .notEqual (.call (.name "f" 2) [.name "s" 2, .name "k" 2] 2) .nil 2]]

def askingForEntry : Call := ⟨hasEntryChunk, hasEntry, anyContext⟩

def evaluatorWith (more : Keyed Json) : Evaluator Chunk (Pool State) :=
  ⟨.lua, compile, execute { oneState with builtins := more }⟩

theorem askingForEntry_silent {more : Keyed Json}
    (fresh : ∀ n ∈ ["f", "s", "k", "pairs", "string"], more.contains n = false) :
    askingForEntry.IsSilent .empty more := by
  intro m member
  have listed : m.name ∈ ["f", "s", "k", "pairs", "string"] := by
    have names : (Block.mentions hasEntryChunk).map Mention.name ⊆
        ["f", "s", "k", "pairs", "string"] := by
      simp [hasEntryChunk, Block.mentions, Stmt.mentions, Exprs.mentions, Expr.mentions]
    exact names (List.mem_map_of_mem member)
  refine ⟨fun same => ?_, fun further => ?_⟩
  · rw [same] at listed
    revert listed
    decide
  · have held := further.1
    simp [fresh m.name listed] at held

theorem askingForEntry_hides : HidePlaces oneState [askingForEntry] (.ofCapacity 1) := by
  refine ⟨fun s acquired => ?_, trivial⟩
  have started : State.ofBuiltins .empty = .ok s := acquired
  apply Machine.StaysClear.neverMakes
  refine Machine.staysClear_of_endsClear
    (?_ : Machine.endsClear (fun n args _ => n.printsPlace args) 1000 _ _ = true)
  simp only [State.start, askingForEntry, hasEntryChunk, execBlock, execAll, exec, evalList, eval,
    List.any_cons, List.any_nil, Stmt.isLabel, Bool.or_false, if_false, Bool.false_eq_true]
  cases started
  decide +kernel

theorem hasEntry_alone :
    (oneStateEvaluator.execute hasEntryChunk hasEntry anyContext (.ofCapacity 1)).1.toOption =
      some true := by
  simp only [oneStateEvaluator, execute, State.ofBuiltins, runTimed, State.run, State.start,
    hasEntryChunk, execBlock, execAll, exec, evalList, eval, List.any_cons, List.any_nil,
    Stmt.isLabel, Bool.or_false, if_false, Bool.false_eq_true]
  decide +kernel

theorem extended_withAdmins : Builtins.Extended .empty withAdmins where
  included name j found := by cases found
  support := by decide +kernel
  globals held := by
    revert held
    decide +kernel

theorem hasEntry_beside_admins :
    compile hasEntry = .ok hasEntryChunk ∧ Builtins.Extended oneState.builtins withAdmins ∧
      evaluatorOf oneState = .ok (oneStateEvaluator, .ofCapacity 1) ∧
      evaluatorOf { oneState with builtins := withAdmins } =
        .ok (evaluatorWith withAdmins, .ofCapacity 1) ∧
      (∀ call ∈ [askingForEntry], call.IsSilent oneState.builtins withAdmins) ∧
      HidePlaces oneState [askingForEntry] (.ofCapacity 1) ∧
      outcomes (evaluatorWith withAdmins) [askingForEntry] (.ofCapacity 1) =
        outcomes oneStateEvaluator [askingForEntry] (.ofCapacity 1) := by
  have accepted : evaluatorOf oneState = .ok (oneStateEvaluator, .ofCapacity 1) := rfl
  have accepted' : evaluatorOf { oneState with builtins := withAdmins } =
    .ok (evaluatorWith withAdmins, .ofCapacity 1) := rfl
  have silent : ∀ call ∈ [askingForEntry], call.IsSilent oneState.builtins withAdmins := by
    rintro call member
    rw [List.mem_singleton.1 member]
    exact askingForEntry_silent (by decide +kernel)
  exact ⟨by cbv, extended_withAdmins, accepted, accepted', silent, askingForEntry_hides,
    further_constants_unseen accepted accepted' extended_withAdmins silent askingForEntry_hides⟩

def withNext : Keyed Json := Keyed.empty.insert "next" (.num (.integer 1))

theorem hasEntry_beside_next :
    ((evaluatorWith withNext).execute hasEntryChunk hasEntry anyContext
      (.ofCapacity 1)).1.toOption = none := by
  simp only [evaluatorWith, execute, State.ofBuiltins, runTimed, State.run, State.start,
    hasEntryChunk, execBlock, execAll, exec, evalList, eval, List.any_cons, List.any_nil,
    Stmt.isLabel, Bool.or_false, if_false, Bool.false_eq_true]
  decide +kernel

theorem next_breaks_silent_rule :
    compile hasEntry = .ok hasEntryChunk ∧
      (∀ name j, oneState.builtins.get? name = some j → withNext.get? name = some j) ∧
      evaluatorOf oneState = .ok (oneStateEvaluator, .ofCapacity 1) ∧
      evaluatorOf { oneState with builtins := withNext } =
        .ok (evaluatorWith withNext, .ofCapacity 1) ∧
      askingForEntry.IsSilent oneState.builtins withNext ∧
      (oneStateEvaluator.execute hasEntryChunk hasEntry anyContext (.ofCapacity 1)).1.toOption =
        some true ∧
      ((evaluatorWith withNext).execute hasEntryChunk hasEntry anyContext
        (.ofCapacity 1)).1.toOption = none := by
  have included : ∀ name j, oneState.builtins.get? name = some j → withNext.get? name = some j := by
    intro name j found
    cases found
  exact ⟨by cbv, included, rfl, rfl, askingForEntry_silent (by decide +kernel), hasEntry_alone,
    hasEntry_beside_next⟩

end CallGuard.Lua
