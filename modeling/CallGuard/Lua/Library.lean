import CallGuard.Lua.Library.Maths
import CallGuard.Lua.Library.Strings
import CallGuard.Lua.Library.Tables
import CallGuard.Lua.Library.Views

set_option autoImplicit false

namespace CallGuard.Lua.Library

open Routine

def perform (n : Native) (vs : List Value) : Routine (List Value) :=
  -- What a function does, without the time that it takes.
  match n with
  | .base f => base f vs
  | .string f => string f vs
  | .table f => table f vs
  | .math f => math f vs
  | .itemStep => itemStep vs
  | .matchStep subject pattern start last => stepMatch subject pattern start last
  | .lookup names optional support => do
    return [← lookup names optional support (Args.value vs 2)]
  | .viewIndex source => do return [← Value.rawIndex source (Args.value vs 2)]
  | .viewNewIndex support => do return [← viewNewIndex support (Args.value vs 2)]
  | .viewLength source => do
    return [.int (.ofNat (← read fun h => (h.tables.getD source .empty).length))]
  | .viewPairs source support =>
    match Args.value vs 1 with
    | .table view => return [.native (.viewStep source view support), .table view, .nil]
    | _ => invalid
  | .viewStep source view support => viewStep source view support (Args.value vs 2)

def run (n : Native) (vs : List Value) : Routine (List Value) := do
  let results ← perform n vs
  spend (byteCounts vs + byteCounts results)
  return results

end CallGuard.Lua.Library
