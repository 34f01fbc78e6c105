import CallGuard.Lua.Library.Arguments
import CallGuard.Lua.Library.Packing
import CallGuard.Lua.Pattern

set_option autoImplicit false

namespace CallGuard.Lua.Library

open Routine

def startPlace (i : Int64) (size : Nat) : Nat :=
  -- A start that may be counted from the end, as a place from one on.
  let n := i.toInt
  if 0 < n then n.toNat
  else if n = 0 then 1
  else if n < -(size : Int) then 1
  else (size + n + 1).toNat

def endPlace (i : Int64) (size : Nat) : Nat :=
  let n := i.toInt
  if (size : Int) < n then size
  else if 0 ≤ n then n.toNat
  else if n < -(size : Int) then 0
  else (size + n + 1).toNat

def slice (s : Bytes) (i j : Nat) : Bytes := s.extract (i - 1) j

def subString (vs : Args) : Routine Value := do
  let s ← Args.bytes vs 1
  let i := startPlace (← Args.int vs 2) s.size
  let j := endPlace (← Args.intOr vs 3 (-1)) s.size
  return .string (if i ≤ j then slice s i j else ⟨#[]⟩)

def byteValues (vs : Args) : Routine (List Value) := do
  let s ← Args.bytes vs 1
  let first ← Args.intOr vs 2 1
  let i := startPlace first s.size
  let j := endPlace (← Args.intOr vs 3 first) s.size
  return (if i ≤ j then slice s i j else ⟨#[]⟩).toList.map fun b => .int (.ofNat b.toNat)

def charBytes (vs : Args) : Routine Value := do
  let bytes ← vs.mapM fun v =>
    match v.toInt? with
    | some i => if 0 ≤ i.toInt && i.toInt < 256 then return UInt8.ofNat i.toInt.toNat else invalid
    | none => invalid
  return .string ⟨bytes.toArray⟩

-- The longest string that may be asked for by its length.
def lengthLimit : Nat := 0x7fffffff

def repeated (s sep : Bytes) : Nat → Bytes → Bytes
  | 0, done => done
  | n + 1, done => repeated s sep n (done ++ sep ++ s)

def repeatString (vs : Args) : Routine Value := do
  let s ← Args.bytes vs 1
  let n ← Args.int vs 2
  let sep ← Args.bytesOr vs 3 ⟨#[]⟩
  if n.toInt ≤ 0 then return .string ⟨#[]⟩
  else if lengthLimit < (s.size + sep.size) * n.toInt.toNat then invalid
  else if s.size + sep.size = 0 then return .string s
  else return .string (repeated s sep (n.toInt.toNat - 1) s)

def mapBytes (f : UInt8 → UInt8) (s : Bytes) : Bytes := ⟨s.data.map f⟩

def lowerByte (b : UInt8) : UInt8 := if Pattern.isUpperByte b then b + 32 else b

def upperByte (b : UInt8) : UInt8 := if Pattern.isLowerByte b then b - 32 else b

def ofPattern {α : Type} : Except Pattern.Fault α → Routine α
  | .ok a => return a
  | .error _ => invalid

def searchStart? (vs : Args) (size : Nat) : Routine (Option Nat) := do
  -- The place where a search starts, from zero on; nothing beyond the end.
  let i := startPlace (← Args.intOr vs 3 1) size - 1
  return if size < i then none else some i

def find (vs : Args) : Routine (List Value) := do
  let s ← Args.bytes vs 1
  let p ← Args.bytes vs 2
  match ← searchStart? vs s.size with
  | none => return [.nil]
  | some start =>
    if (Args.value vs 4).truth || Pattern.isPlain p.toList then
      match Pattern.findPlain s p (s.size + 1) start with
      | some i => return [.int (.ofNat (i + 1)), .int (.ofNat (i + p.size))]
      | none => return [.nil]
    else
      match ← ofPattern (Pattern.find s p.toList start) with
      | none => return [.nil]
      | some (i, stop, caps) =>
        let captured ← ofOption (Pattern.values? s caps)
        return .int (.ofNat (i + 1)) :: .int (.ofNat stop) :: captured

def matchFirst (vs : Args) : Routine (List Value) := do
  let s ← Args.bytes vs 1
  let p ← Args.bytes vs 2
  match ← searchStart? vs s.size with
  | none => return [.nil]
  | some start =>
    match ← ofPattern (Pattern.find s p.toList start) with
    | none => return [.nil]
    | some (i, stop, caps) => ofOption (Pattern.matchValues? s i stop caps)

def matchIterator (vs : Args) : Routine Value := do
  let s ← Args.bytes vs 1
  let p ← Args.bytes vs 2
  let start := min (startPlace (← Args.intOr vs 3 1) s.size - 1) (s.size + 1)
  let startCell ← alloc fun h => h.newCell (.int (.ofNat start))
  let lastCell ← alloc fun h => h.newCell .nil
  return .native (.matchStep s p startCell lastCell)

def nextMatch (s : Bytes) (p : List UInt8) (last : Option Nat) :
    Nat → Nat → Except Pattern.Fault (Option (Nat × Nat × Pattern.Captures))
  -- The next match from a place on that does not end where the last one did.
  | 0, _ => .ok none
  | fuel + 1, pos =>
    if s.size < pos then .ok none
    else
      match Pattern.matchAt s p pos with
      | .error e => .error e
      | .ok (some (stop, caps)) =>
        if some stop = last then nextMatch s p last fuel (pos + 1)
        else .ok (some (pos, stop, caps))
      | .ok none => nextMatch s p last fuel (pos + 1)

def naturalOf : Value → Option Nat
  | .int i => some i.toInt.toNat
  | _ => none

def stepMatch (s p : Bytes) (startCell lastCell : CellId) : Routine (List Value) := do
  let start ← ofOption (naturalOf (← read fun h => h.cell startCell))
  let last := naturalOf (← read fun h => h.cell lastCell)
  match ← ofPattern (nextMatch s p.toList last (s.size + 2) start) with
  | none => return [.nil]
  | some (i, stop, caps) =>
    update fun h => (h.setCell startCell (.int (.ofNat stop))).setCell lastCell (.int (.ofNat stop))
    ofOption (Pattern.matchValues? s i stop caps)

def expand (whole : Bytes) (captures : List Value) : List UInt8 → Bytes → Option Bytes
  | [], done => some done
  | c :: rest, done =>
    if c = Pattern.escape then
      match rest with
      | [] => none
      | d :: rest =>
        if d = Pattern.escape then expand whole captures rest (done.push d)
        else if d = Pattern.code '0' then expand whole captures rest (done ++ whole)
        else if Pattern.isDigitByte d then
          match captures[d.toNat - 49]? with
          | some v => expand whole captures rest (done ++ v.display)
          | none => none
        else none
    else expand whole captures rest (done.push c)

def replacement (how : Value) (s : Bytes) (i stop : Nat) (caps : Pattern.Captures) :
    Routine Bytes := do
  -- What takes the place of a match; a value that counts as false leaves it as it is.
  let whole := s.extract i stop
  let captured := Pattern.matchValues? s i stop caps
  match how with
  | .table _ => do
    let key ← ofOption captured
    chosen whole (← how.index (firstOf key) .native)
  | .string r => ofOption (do expand whole (← captured) r.toList ⟨#[]⟩)
  | .int _ => ofOption how.toBytes?
  | .float _ => ofOption how.toBytes?
  | f => do
    let args ← ofOption captured
    chosen whole (firstOf (← f.call args .native))
where
  chosen (whole : Bytes) (v : Value) : Routine Bytes :=
    if v.truth then ofOption v.toBytes? else return whole

def replaceFrom (how : Value) (s : Bytes) (p : List UInt8) (onlyFirst : Bool) :
    Nat → Nat → Option Nat → Nat → Nat → Bytes → Routine (Bytes × Nat)
  -- Replaces matches from a place on; `left` more may be replaced. A match that ends where the last
  -- one did does not count.
  | 0, _, _, _, count, done => return (done, count)
  | fuel + 1, pos, last, left, count, done => do
    if left = 0 then return (done ++ s.extract pos s.size, count)
    pause
    let found ← ofPattern (Pattern.matchAt s p pos)
    match found.filter fun m => some m.1 != last with
    | some (stop, caps) =>
      let done := done ++ (← replacement how s pos stop caps)
      if onlyFirst then return (done ++ s.extract stop s.size, count + 1)
      replaceFrom how s p onlyFirst fuel stop (some stop) (left - 1) (count + 1) done
    | none =>
      match s[pos]? with
      | none => return (done, count)
      | some b =>
        if onlyFirst then return (done ++ s.extract pos s.size, count)
        replaceFrom how s p onlyFirst fuel (pos + 1) last left count (done.push b)

def isReplacement : Value → Bool
  | .nil => false
  | .bool _ => false
  | _ => true

def replaceAll (vs : Args) : Routine (List Value) := do
  let s ← Args.bytes vs 1
  let p ← Args.bytes vs 2
  let how := Args.value vs 3
  if !isReplacement how then invalid
  let most ← Args.intOr vs 4 (.ofNat (s.size + 1))
  let (onlyFirst, pattern) := Pattern.anchored p.toList
  let (text, count) ←
    replaceFrom how s pattern onlyFirst (2 * s.size + 3) 0 none most.toInt.toNat 0 ⟨#[]⟩
  return [.string text, .int (.ofNat count)]

def string (f : StringFunction) (vs : Args) : Routine (List Value) :=
  match f with
  | .byte => byteValues vs
  | .char => do return [← charBytes vs]
  | .dump =>
    match Args.value vs 1 with
    | .function _ => return [.text "\x1bLua"]
    | _ => invalid
  | .find => find vs
  | .format => do
    let format ← Args.bytes vs 1
    return [.string (← ofOption (format? format (vs.drop 1)))]
  | .gmatch => do return [← matchIterator vs]
  | .gsub => replaceAll vs
  | .len => do return [.int (.ofNat (← Args.bytes vs 1).size)]
  | .lower => do return [.string (mapBytes lowerByte (← Args.bytes vs 1))]
  | .matchFirst => matchFirst vs
  | .pack => do
    let format ← Args.bytes vs 1
    return [.string (← ofOption (Packing.pack? format (vs.drop 1)))]
  | .packSize => do return [.int (← ofOption (Packing.size? (← Args.bytes vs 1)))]
  | .rep => do return [← repeatString vs]
  | .reverse => do return [.string ⟨(← Args.bytes vs 1).data.reverse⟩]
  | .sub => do return [← subString vs]
  | .unpack => do
    let format ← Args.bytes vs 1
    let data ← Args.bytes vs 2
    let start := startPlace (← Args.intOr vs 3 1) data.size - 1
    ofOption (Packing.unpack? format data start)
  | .upper => do return [.string (mapBytes upperByte (← Args.bytes vs 1))]

end CallGuard.Lua.Library
