import CallGuard.Backend
import CallGuard.Context

set_option autoImplicit false

namespace CallGuard

structure Evaluator (P S : Type) where
  backend : Backend
  compile : String → Except Error P
  -- The outcome of a program for a context. The text is the one the program was compiled from,
  -- which errors name.
  execute : P → String → Context → S → Outcome Bool × S

end CallGuard
