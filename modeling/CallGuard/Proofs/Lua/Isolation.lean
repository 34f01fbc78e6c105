import CallGuard.Lua.Evaluator
import CallGuard.Proofs.Lua.Startup

set_option autoImplicit false

namespace CallGuard.Lua

variable {options : Options}

structure Call where
  program : Chunk
  text : String
  context : Context

namespace State

def reseed (s : State) (r : Random) : State := { s with random := r }

theorem reseed_sealed {s : State} (sealed : s.Sealed) (r : Random) : (s.reseed r).Sealed :=
  ⟨sealed.heap, sealed.names⟩

end State

namespace Call

def draws (options : Options) (s : State) (call : Call) : Bool :=
  Machine.draws (fuelFor options call.context) (.initial s.random)
    (s.start call.program call.context)

-- In a state that has just been made, the call asks for no random number.
def IsSteady (options : Options) (call : Call) : Prop :=
  ∀ s, State.ofBuiltins options.builtins = .ok s → call.draws options s = false

end Call

theorem runTimed_eq (options : Options) {s : State} (sealed : s.Sealed) (call : Call) :
    ∃ outcome random,
      runTimed options call.program call.text call.context s =
        (outcome, false, s.reseed random) := by
  obtain ⟨ending, left, random, result, room⟩ :=
    State.run_eq sealed call.program call.context (fuelFor options call.context)
  have handedBack : isOutOfMemory ending = false := by
    unfold isOutOfMemory
    split
    · exact absurd rfl room
    · rfl
  simp only [runTimed, result, handedBack]
  exact ⟨_, random, rfl⟩

theorem runTimed_reseed {s : State} {call : Call} (quiet : call.draws options s = false)
    (r : Random) :
    (runTimed options call.program call.text call.context (s.reseed r)).1 =
      (runTimed options call.program call.text call.context s).1 := by
  obtain ⟨⟨ending, left, random, h⟩, result⟩ : ∃ x, Machine.run (fuelFor options call.context)
    (.initial s.random) (s.start call.program call.context) = x := ⟨_, rfl⟩
  have again : Machine.run (fuelFor options call.context) (.initial (s.reseed r).random)
      ((s.reseed r).start call.program call.context) = (ending, left, r, h) :=
    Machine.run_reseed _ _ r quiet result
  simp only [runTimed, State.run, result, again]

-- Between two calls of a session, up to the numbers that look random.
inductive Rested (made : State) : Pool State → Prop
  | unused (capacity : Nat) (positive : 0 < capacity) : Rested made ⟨capacity, [], 0, positive⟩
  | back (capacity : Nat) (positive : 0 < capacity) (r : Random) :
    Rested made ⟨capacity, [made.reseed r], 1, positive⟩

theorem Rested.created {made : State} {pool : Pool State} (rested : Rested made pool) :
    pool.created ≤ 1 ∧ pool.idle.length = pool.created := by
  cases rested <;> simp

namespace Call

def outcomeIn (options : Options) (s : State) (call : Call) : Outcome Bool :=
  if call.context.deadlinePassed then .fail (.deadline call.text)
  else (runTimed options call.program call.text call.context s).1

def execute (options : Options) (call : Call) (pool : Pool State) : Outcome Bool × Pool State :=
  Lua.execute options call.program call.text call.context pool

theorem execute_rested {made : State} (started : State.ofBuiltins options.builtins = .ok made)
    (call : Call) {pool : Pool State} (rested : Rested made pool) :
    Rested made (call.execute options pool).2 ∧
      ∃ r, (call.execute options pool).1 = call.outcomeIn options (made.reseed r) := by
  have sealed := State.ofBuiltins_sealed started
  by_cases late : call.context.deadlinePassed
  · refine ⟨?_, made.random, ?_⟩
    · simpa [execute, Lua.execute, late] using rested
    · simp [execute, Lua.execute, outcomeIn, late]
  · cases rested with
    | unused capacity positive =>
      obtain ⟨outcome, random, run⟩ := runTimed_eq options sealed call
      have made_eq : made.reseed made.random = made := rfl
      simp only [execute, Lua.execute, outcomeIn, late, Pool.acquire, positive, if_true, started,
        run]
      refine ⟨.back capacity positive random, made.random, ?_⟩
      simp [made_eq, run]
    | back capacity positive r =>
      obtain ⟨outcome, random, run⟩ := runTimed_eq options (State.reseed_sealed sealed r) call
      simp only [execute, Lua.execute, outcomeIn, late, Pool.acquire, run]
      refine ⟨.back capacity positive random, r, ?_⟩
      simp [run]

theorem outcomeIn_reseed {made : State} (started : State.ofBuiltins options.builtins = .ok made)
    {call : Call} (steady : call.IsSteady options) (r : Random) :
    call.outcomeIn options (made.reseed r) = call.outcomeIn options made := by
  simp only [outcomeIn, runTimed_reseed (steady made started) r]

end Call

def poolAfter (E : Evaluator Chunk (Pool State)) (calls : List Call) (pool : Pool State) :
    Pool State :=
  calls.foldl (fun pool call => (E.execute call.program call.text call.context pool).2) pool

theorem poolAfter_rested {made : State} (started : State.ofBuiltins options.builtins = .ok made)
    (calls : List Call) {pool : Pool State} (rested : Rested made pool) :
    Rested made (poolAfter ⟨.lua, compile, execute options⟩ calls pool) := by
  induction calls generalizing pool with
  | nil => exact rested
  | cons call rest ih => exact ih (call.execute_rested started rested).1

theorem calls_isolated {E : Evaluator Chunk (Pool State)} {fresh : Pool State}
    (accepted : evaluatorOf options = .ok (E, fresh)) (earlier : List Call) :
    (poolAfter E earlier fresh).created ≤ 1 ∧
      (poolAfter E earlier fresh).idle.length = (poolAfter E earlier fresh).created ∧
        ∀ call : Call, call.IsSteady options →
          (E.execute call.program call.text call.context (poolAfter E earlier fresh)).1 =
            (E.execute call.program call.text call.context fresh).1 := by
  obtain ⟨⟨made, started⟩, rfl, rfl⟩ := evaluatorOf_eq_ok accepted
  have unused : Rested made (.ofCapacity options.poolSize) := .unused _ _
  have rested := poolAfter_rested started earlier unused
  refine ⟨rested.created.1, rested.created.2, fun call steady => ?_⟩
  -- both pools hand out the state that has been made, each with other random numbers
  obtain ⟨r, now⟩ := (call.execute_rested started rested).2
  obtain ⟨r', first⟩ := (call.execute_rested started unused).2
  calc (call.execute options _).1
    _ = call.outcomeIn options (made.reseed r) := now
    _ = call.outcomeIn options made := Call.outcomeIn_reseed started steady r
    _ = call.outcomeIn options (made.reseed r') := (Call.outcomeIn_reseed started steady r').symm
    _ = (call.execute options (.ofCapacity options.poolSize)).1 := first.symm

def oneState : Options := ⟨1, none, 1000, .empty⟩

def oneStateEvaluator : Evaluator Chunk (Pool State) := ⟨.lua, compile, execute oneState⟩

def anyContext : Context := ⟨.null, none, .empty, false, "/s.A/m", none⟩

def overwriting : Call where
  program := [
    .assign [.name "contains" 1, .name "leaked" 1]
      [.function (.mk [] false [.ret [.bool true]]), .number (.int 42)] 1,
    .ret [.bool false]]
  text := "contains, leaked = function() return true end, 42 return false"
  context := anyContext

def asking : Call where
  program := [.ret [.call (.name "contains" 1) [.table [], .string (.ofText "admin")] 1]]
  text := "contains({}, 'admin')"
  context := anyContext

theorem asking_steady : asking.IsSteady oneState := by
  intro s started
  simp only [Call.draws, State.start, asking, execBlock, execAll, exec, evalList, eval, evalFields,
    List.any_cons, List.any_nil, Stmt.isLabel, Bool.or_false, if_false, Bool.false_eq_true]
  cases started
  decide +kernel

theorem asking_first :
    (oneStateEvaluator.execute asking.program asking.text asking.context
      (.ofCapacity 1)).1.toOption = some false := by
  simp only [oneStateEvaluator, execute, State.ofBuiltins, runTimed, State.run, State.start, asking,
    execBlock, execAll, exec, evalList, eval, evalFields, List.any_cons, List.any_nil,
    Stmt.isLabel, Bool.or_false, if_false, Bool.false_eq_true]
  decide +kernel

theorem contains_after_overwriting :
    evaluatorOf oneState = .ok (oneStateEvaluator, .ofCapacity 1) ∧ asking.IsSteady oneState ∧
      (oneStateEvaluator.execute asking.program asking.text asking.context
        (poolAfter oneStateEvaluator [overwriting] (.ofCapacity 1))).1.toOption = some false := by
  have accepted : evaluatorOf oneState = .ok (oneStateEvaluator, .ofCapacity 1) := rfl
  refine ⟨accepted, asking_steady, ?_⟩
  rw [(calls_isolated accepted [overwriting]).2.2 asking asking_steady]
  exact asking_first

end CallGuard.Lua
