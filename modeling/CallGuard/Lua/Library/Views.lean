import CallGuard.Lua.Library.Base

set_option autoImplicit false

namespace CallGuard.Lua

def Table.view (source : TableId) (support : Support) : Table where
  items := #[]
  nodes := #[]
  capacity := 0
  handlers := {
    index := some (.viewIndex source)
    newIndex := some (.viewNewIndex support)
    length := some (.viewLength source)
    pairs := some (.viewPairs source support) }

def Heap.newView (h : Heap) (source : TableId) (support : Support) : TableId × Heap :=
  h.newTable (.view source support)

namespace Library

open Routine

def report {α : Type} (support : Support) (start : String) (k : Value) : Routine α :=
  if support.canReport then
    fail (.raised (.string (.ofText start ++ k.display ++ .ofText "'")) 1)
  else invalid

def lookup (names : TableId) (optional : List String) (support : Support) (k : Value) :
    Routine Value := do
  let v ← Value.rawIndex names k
  let isOptional := match k with
    | .string s => optional.any fun name => Bytes.ofText name == s
    | _ => false
  if !v.isNil || isOptional then return v
  else report support "undeclared variable '" k

def viewNewIndex (support : Support) (k : Value) : Routine Value :=
  report support "attempt to modify read-only value '" k

def viewStep (source view : TableId) (support : Support) (k : Value) : Routine (List Value) := do
  -- One step through a view: the keys are those of the source.
  if !support.canStep then invalid
  let key := firstOf (← nextEntry source k)
  if key.isNil then return [.nil]
  else return [key, ← (Value.table view).index key .native]

end Library

end CallGuard.Lua
