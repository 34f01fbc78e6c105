import CallGuard.Cel.Evaluator
import CallGuard.Lua.Evaluator

set_option autoImplicit false

namespace CallGuard

inductive Error.OfRunning : Error → Prop
  | evaluation (expression : String) (reason : Message) : OfRunning (.evaluation expression reason)
  | nonBoolean (expression : String) (got : Message) : OfRunning (.nonBoolean expression got)
  | deadline (expression : String) : OfRunning (.deadline expression)
  | pool (reason : String) : OfRunning (.pool reason)

theorem Error.OfRunning.code {e : Error} (running : e.OfRunning) : e.code ∈
    ["evaluation_error", "non_boolean_result", "deadline_exceeded", "pool_exhausted"] := by
  cases running <;> simp [Error.code]

inductive Backend.Halts (b : Backend) : Halt → Prop
  | error {e : Error} (running : e.OfRunning) : Halts b (.error e)
  | crash (cel : b = .cel) : Halts b .crash

theorem Cel.run_halts [Regex.Engine] {program : Cel.Expr} {text : String} {c : Context}
    {halt : Halt} (failed : Cel.run program text c = .error halt) : Backend.cel.Halts halt := by
  unfold Cel.run Cel.outcomeOf at failed
  split at failed
  · cases failed
    exact .error (.deadline _)
  · split at failed <;> cases failed
    · exact .error (.nonBoolean _ _)
    · exact .error (.evaluation _ _)
    · exact .crash rfl

theorem Lua.outcomeOf_halts {text : String} {late : Bool} {ending : Option Lua.Machine.Ending}
    {halt : Halt} (failed : Lua.outcomeOf text late ending = .error halt) :
    Backend.lua.Halts halt := by
  unfold Lua.outcomeOf at failed
  split at failed
  · cases failed
    exact .error (.deadline _)
  · split at failed <;> cases failed
    exact .error (.nonBoolean _ _)
  all_goals
    cases late <;> cases failed
    · exact .error (.evaluation _ _)
    · exact .error (.deadline _)

theorem Lua.execute_halts {options : Lua.Options} {first : Lua.State}
    (fresh : Lua.State.ofBuiltins options.builtins = .ok first) {program : Lua.Chunk}
    {text : String} {c : Context} {pool : Pool Lua.State} {halt : Halt}
    (failed : (Lua.execute options program text c pool).1 = .error halt) :
    Backend.lua.Halts halt := by
  unfold Lua.execute at failed
  split at failed
  · cases failed
    exact .error (.deadline _)
  · rw [fresh] at failed
    split at failed
    · next exhausted =>
      cases failed
      unfold Pool.acquire at exhausted
      split at exhausted
      · cases exhausted
      · split at exhausted <;> cases exhausted
        exact .error (.pool _)
    · next s p acquired =>
      have outcome : (Lua.runTimed options program text c s).1 = .error halt := by
        split at failed <;> simp_all
      exact Lua.outcomeOf_halts outcome

end CallGuard
