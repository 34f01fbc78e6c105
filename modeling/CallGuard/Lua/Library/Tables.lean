import CallGuard.Lua.Library.Arguments

set_option autoImplicit false

namespace CallGuard.Lua.Library

open Routine

def measured (vs : Args) : Routine (Value × Int64) := do
  let t ← Args.table vs 1
  return (t, ← lengthOf t)

def joinFrom (t : Value) (sep : Bytes) : Nat → Int64 → Bytes → Routine Bytes
  | 0, _, done => return done
  | 1, i, done => do return done ++ (← ofOption (← item t i).toBytes?)
  | count + 1, i, done => do
    pause
    let s ← ofOption (← item t i).toBytes?
    joinFrom t sep count (i + 1) (done ++ s ++ sep)

def join (vs : Args) : Routine Value := do
  let (t, size) ← measured vs
  let sep ← Args.bytesOr vs 2 ⟨#[]⟩
  let i ← Args.intOr vs 3 1
  let last ← Args.intOr vs 4 size
  return .string (← joinFrom t sep (spanCount i last) i ⟨#[]⟩)

def copyUp (source : Value) (start : Int64) (target : Value) (place : Int64) :
    Nat → Int64 → Routine Unit
  | 0, _ => return ()
  | count + 1, i => do
    pause
    setItem target (place + i) (← item source (start + i))
    copyUp source start target place count (i + 1)

def copyDown (source : Value) (start : Int64) (target : Value) (place : Int64) :
    Nat → Routine Unit
  | 0 => return ()
  | count + 1 => do
    pause
    let i := Int64.ofNat count
    setItem target (place + i) (← item source (start + i))
    copyDown source start target place count

-- Whether a number is between one and another, which counts as unsigned.
def withinLength (i size : Int64) : Bool := (i - 1).toUInt64 < size.toUInt64

def insertItem (vs : Args) : Routine Unit := do
  -- Items from the place on make room for the new one.
  let (t, size) ← measured vs
  let next := size + 1
  match vs with
  | [_, v] => setItem t next v
  | [_, _, v] => do
    let pos ← Args.int vs 2
    if !withinLength pos next then invalid
    copyDown t pos t (pos + 1) (spanCount pos size)
    setItem t pos v
  | _ => invalid

def removeItem (vs : Args) : Routine Value := do
  let (t, size) ← measured vs
  let pos ← Args.intOr vs 2 size
  if pos != size && !withinLength pos (size + 1) then invalid
  let v ← item t pos
  let count := spanCount pos (size - 1)
  copyUp t (pos + 1) t pos count 0
  setItem t (pos + .ofNat count) .nil
  return v

def readable (v : Value) : Bool :=
  match v with
  | .table _ => true
  | .string _ => true
  | _ => false

def moveItems (vs : Args) : Routine Value := do
  -- Items that would be overwritten before they are read are copied last first.
  let first ← Args.int vs 2
  let last ← Args.int vs 3
  let place ← Args.int vs 4
  let source := Args.value vs 1
  let apart := !(Args.value vs 5).isNil
  if !readable source then invalid
  let target ← Args.table vs (if apart then 5 else 1)
  if first.toInt ≤ last.toInt then
    let count := spanCount first last
    if intBound ≤ count then invalid
    if intBound ≤ place.toInt + count - 1 then invalid
    if last.toInt < place.toInt || place.toInt ≤ first.toInt || (apart && !source.same target) then
      copyUp source first target place count 0
    else copyDown source first target place count
  return target

def packItems (vs : Args) : Routine Value := do
  let id ← alloc fun h => h.newTable (.ofSizes vs.length 1)
  update fun h => h.modifyTable id fun t =>
    let filled := vs.foldl (fun (t, i) v => (Table.setInt t (.ofNat i) v, i + 1)) (t, 1)
    filled.1.setText "n" (.int (.ofNat vs.length))
  return .table id

def resultLimit : Nat := 999990

def unpackItems (vs : Args) : Routine (List Value) := do
  let t := Args.value vs 1
  let i ← Args.intOr vs 2 1
  let last ← if (Args.value vs 3).isNil then lengthOf t else Args.int vs 3
  let count := spanCount i last
  if resultLimit < count then invalid
  itemsFrom t count i []

def precedes (order : Value) (a b : Value) : Routine Bool := do
  pause
  match order with
  | .nil => ofOption (Value.less? a b)
  | f => return (firstOf (← f.call [a, b] .native)).truth

structure Sorting where
  table : Value
  order : Value

namespace Sorting

def get (s : Sorting) (i : Nat) : Routine Value := item s.table (.ofNat i)

def set (s : Sorting) (i : Nat) (v : Value) : Routine Unit := setItem s.table (.ofNat i) v

def climb (s : Sorting) (pivot : Value) (stop : Nat) : Nat → Nat → Routine (Nat × Value)
  -- The first item after a place that does not come before the pivot. There has to be one in front
  -- of the pivot's own place.
  | 0, _ => invalid
  | fuel + 1, i => do
    let v ← s.get (i + 1)
    if ← precedes s.order v pivot then
      if i + 1 = stop then invalid
      climb s pivot stop fuel (i + 1)
    else return (i + 1, v)

def descend (s : Sorting) (pivot : Value) (start : Nat) : Nat → Nat → Routine (Nat × Value)
  | 0, _ => invalid
  | fuel + 1, j => do
    let v ← s.get (j - 1)
    if ← precedes s.order pivot v then
      if j - 1 < start then invalid
      descend s pivot start fuel (j - 1)
    else return (j - 1, v)

def partition (s : Sorting) (pivot : Value) (up : Nat) : Nat → Nat → Nat → Routine Nat
  | 0, _, _ => invalid
  | fuel + 1, i, j => do
    let (i, a) ← s.climb pivot (up - 1) (up + 1) i
    let (j, b) ← s.descend pivot i (up + 1) j
    if j < i then
      s.set (up - 1) a
      s.set i pivot
      return i
    else
      s.set i b
      s.set j a
      partition s pivot up fuel i j

def orderThree (s : Sorting) (lo middle up : Nat) : Routine Unit := do
  let p ← s.get middle
  let a ← s.get lo
  if ← precedes s.order p a then
    s.set middle a
    s.set lo p
  else
    let b ← s.get up
    if ← precedes s.order b p then
      s.set middle b
      s.set up p

def sortRange (s : Sorting) : Nat → Nat → Nat → Routine Unit
  -- Sorts a range. The fuel is above its length.
  | 0, _, _ => return ()
  | fuel + 1, lo, up => do
    if up ≤ lo then return
    let a ← s.get lo
    let b ← s.get up
    if ← precedes s.order b a then
      s.set lo b
      s.set up a
    if up - lo = 1 then return
    let middle := (lo + up) / 2
    s.orderThree lo middle up
    if up - lo = 2 then return
    let pivot ← s.get middle
    let b ← s.get (up - 1)
    s.set middle b
    s.set (up - 1) pivot
    let p ← s.partition pivot up (up + 1) lo (up - 1)
    if p - lo < up - p then
      sortRange s fuel lo (p - 1)
      sortRange s fuel (p + 1) up
    else
      sortRange s fuel (p + 1) up
      sortRange s fuel lo (p - 1)

end Sorting

def isFunction : Value → Bool
  | .function _ => true
  | .native _ => true
  | _ => false

def sortItems (vs : Args) : Routine Unit := do
  -- The order is looked at only when there is something to sort.
  let (t, size) ← measured vs
  let order := Args.value vs 2
  if 1 < size.toInt then
    if 0x7fffffff ≤ size.toInt then invalid
    if !(order.isNil || isFunction order) then invalid
    Sorting.sortRange ⟨t, order⟩ (size.toInt.toNat + 1) 1 size.toInt.toNat

def table (f : TableFunction) (vs : Args) : Routine (List Value) :=
  match f with
  | .concat => do return [← join vs]
  | .insert => do
    insertItem vs
    return []
  | .move => do return [← moveItems vs]
  | .pack => do return [← packItems vs]
  | .remove => do return [← removeItem vs]
  | .sort => do
    sortItems vs
    return []
  | .unpack => unpackItems vs

end CallGuard.Lua.Library
