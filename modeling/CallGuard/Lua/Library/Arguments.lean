import CallGuard.Lua.Format
import CallGuard.Lua.Operation

set_option autoImplicit false

namespace CallGuard.Lua.Library

open Routine

abbrev Args := List Value

namespace Args

def get? (vs : Args) (n : Nat) : Option Value := (vs : List Value)[n - 1]?

def present (vs : Args) (n : Nat) : Routine Value := ofOption (get? vs n)

def value (vs : Args) (n : Nat) : Value := (get? vs n).getD .nil

def int (vs : Args) (n : Nat) : Routine Int64 := ofOption (value vs n).toInt?

def intOr (vs : Args) (n : Nat) (default : Int64) : Routine Int64 :=
  if (value vs n).isNil then return default else int vs n

def float (vs : Args) (n : Nat) : Routine Float := ofOption ((value vs n).toNum?.map Num.toFloat)

def bytes (vs : Args) (n : Nat) : Routine Bytes := ofOption (value vs n).toBytes?

def bytesOr (vs : Args) (n : Nat) (default : Bytes) : Routine Bytes :=
  if (value vs n).isNil then return default else bytes vs n

def table (vs : Args) (n : Nat) : Routine Value :=
  match value vs n with
  | .table id => return .table id
  | _ => invalid

end Args

def item (t : Value) (i : Int64) : Routine Value := t.index (.int i) .native

def setItem (t : Value) (i : Int64) (v : Value) : Routine Unit := t.setIndex (.int i) v .native

def lengthOf (t : Value) : Routine Int64 := do
  -- The length of a value, which has to be an integer.
  ofOption ((← t.length .native).number?.bind Num.toInt?)

def itemsFrom (t : Value) : Nat → Int64 → List Value → Routine (List Value)
  -- Reads the items at `count` places from `i` on, latest first in front of `done`.
  | 0, _, done => return done.reverse
  | count + 1, i, done => do
    pause
    let v ← item t i
    itemsFrom t count (i + 1) (v :: done)

def spanCount (i j : Int64) : Nat := (j.toInt - i.toInt + 1).toNat

end CallGuard.Lua.Library
