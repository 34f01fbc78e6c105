import CallGuard.Json.Basic

set_option autoImplicit false

namespace CallGuard.Lua

structure Options where
  poolSize : Nat
  -- In milliseconds; without a value a rule may run as long as its call.
  timeout : Option Nat
  -- How many instructions run between two looks at the clock.
  interval : Nat
  builtins : Keyed Json

namespace Options

def defaultPoolSize : Nat := 4

def defaultTimeout : Nat := 100

def defaultInterval : Nat := 1000

end Options

end CallGuard.Lua
