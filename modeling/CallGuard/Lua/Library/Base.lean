import CallGuard.Lua.Library.Arguments

set_option autoImplicit false

namespace CallGuard.Lua.Library

open Routine

def digitsTo? (base : Nat) (cs : List Char) : Option Nat :=
  -- The digits of a number to a base from their letters; the number wraps around.
  if cs.isEmpty then none
  else cs.foldl (fun n c => do
    let n ← n
    if c.isDigit || c.isAlpha then
      let d := digitValue c.toUpper
      if d < base then some (n * base + d) else none
    else none) (some 0)

def integerTo? (base : Nat) (s : Bytes) : Option Int64 :=
  let cs := charsOf s
  let trimmed := ((cs.dropWhile isSpace).reverse.dropWhile isSpace).reverse
  match trimmed with
  | '-' :: digits => (digitsTo? base digits).map fun n => .ofInt (-(n : Int))
  | '+' :: digits => (digitsTo? base digits).map fun n => .ofInt n
  | digits => (digitsTo? base digits).map fun n => .ofInt n

def toNumber (vs : Args) : Routine Value := do
  if (Args.value vs 2).isNil then
    let v ← Args.present vs 1
    return (v.toNum?.map Value.ofNum).getD .nil
  else
    let base ← Args.int vs 2
    match Args.value vs 1 with
    | .string s =>
      if base.toInt < 2 ∨ 36 < base.toInt then invalid
      return ((integerTo? base.toInt.toNat s).map Value.int).getD .nil
    | _ => invalid

def select (vs : Args) : Routine (List Value) := do
  -- The arguments after the first ones, counted from the end for a negative number.
  let rest := vs.drop 1
  match Args.value vs 1 with
  | .string s =>
    if s[0]? = some 35 then return [.int (.ofNat rest.length)]
    else selectFrom rest
  | _ => selectFrom rest
where
  selectFrom (rest : List Value) : Routine (List Value) := do
    let n := (← Args.int vs 1).toInt
    if n < 0 then
      let n := n + vs.length
      if n < 1 then invalid
      return rest.drop (n.toNat - 1)
    else
      if n = 0 then invalid
      return rest.drop (n.toNat - 1)

def containsFrom (t v : Value) : Nat → Int64 → Routine Value
  -- Whether a list holds a value: its items are looked at up to the first that is nil.
  | 0, _ => return .bool false
  | fuel + 1, i => do
    pause
    let w ← item t i
    if w.isNil then return .bool false
    else if w.same v then return .bool true
    else containsFrom t v fuel (i + 1)

def nextEntry (id : TableId) (k : Value) : Routine (List Value) := do
  let found ← match k with
    | .nil => read fun h => (h.tables.getD id .empty).next? none
    | k =>
      match k.toKey? with
      | none => pure none
      | some key => read fun h => (h.tables.getD id .empty).next? (some key)
  match found with
  | none => invalid
  | some none => return [.nil]
  | some (some (key, v)) => return [key.toValue, v]

def itemStep (vs : Args) : Routine (List Value) := do
  -- The next item of a list, up to the first that is nil.
  let i := (← Args.int vs 2) + 1
  let v ← item (Args.value vs 1) i
  return if v.isNil then [.nil] else [.int i, v]

def longestList : Nat := 0x4000000000000000

def base (f : BaseFunction) (vs : Args) : Routine (List Value) :=
  match f with
  | .assert => do
    let v ← Args.present vs 1
    if v.truth then return vs
    else
      match Args.get? vs 2 with
      | some message => fail (.raised message 1)
      | none => fail (.raised (.text "assertion failed!") 1)
  | .contains =>
    match Args.value vs 1 with
    | .table id => do return [← containsFrom (.table id) (Args.value vs 2) longestList 1]
    | _ => return [.bool false]
  | .error => do
    let level ← Args.intOr vs 2 1
    fail (.raised (Args.value vs 1) level.toInt.toNat)
  | .ipairs => do
    let v ← Args.present vs 1
    return [.native .itemStep, v, .int 0]
  | .next =>
    match Args.value vs 1 with
    | .table id => nextEntry id (Args.value vs 2)
    | _ => invalid
  | .pairs => do
    let v ← Args.present vs 1
    let handler ← match v with
      | .table id => read fun h => (h.handlers id).pairs
      | _ => pure none
    match handler with
    | some f => return atMost 3 (← Routine.call (.native f) [v] .native)
    | none => return [.native (.base .next), v, .nil]
  | .select => select vs
  | .toNumber => do return [← toNumber vs]
  | .toString => do return [.string (← Args.present vs 1).display]
  | .type => do return [.text (← Args.present vs 1).typeName]
where
  atMost (n : Nat) (vs : List Value) : List Value := (vs ++ List.replicate n Value.nil).take n

end CallGuard.Lua.Library
