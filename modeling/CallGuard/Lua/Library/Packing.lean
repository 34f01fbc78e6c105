import CallGuard.Lua.Number

set_option autoImplicit false

namespace CallGuard.Lua.Packing

inductive Item
  | signed (size : Nat)
  | unsigned (size : Nat)
  | single
  | double
  -- Text of a fixed size, filled up with zeros.
  | chars (size : Nat)
  -- Text after its length, which takes so many bytes.
  | counted (size : Nat)
  -- Text before a zero.
  | terminated
  | padding
  -- Takes no room, but is aligned.
  | alignment
deriving DecidableEq, Repr

structure Field where
  item : Item
  -- The start is a multiple of this.
  align : Nat
  littleEndian : Bool
deriving DecidableEq, Repr

namespace Item

def size : Item → Nat
  | signed n => n
  | unsigned n => n
  | single => 4
  | double => 8
  | chars n => n
  | counted n => n
  | terminated => 0
  | padding => 1
  | alignment => 0

def isChars : Item → Bool
  | chars _ => true
  | _ => false

def hasFixedSize : Item → Bool
  | counted _ => false
  | terminated => false
  | _ => true

end Item

structure Mode where
  littleEndian : Bool
  maxAlign : Nat

-- Little endian, and nothing is aligned.
def Mode.initial : Mode := ⟨true, 1⟩

inductive Letter
  | item (i : Item)
  | mode (m : Mode)

def numberFrom : Nat → List Char → Nat × List Char
  -- Digits are read as long as another one keeps the number small.
  | n, [] => (n, [])
  | n, c :: cs =>
    if c.isDigit && n ≤ 214748363 then numberFrom (n * 10 + digitValue c) cs else (n, c :: cs)

def number? : List Char → Option Nat × List Char
  | [] => (none, [])
  | c :: cs =>
    if c.isDigit then
      let (n, rest) := numberFrom (digitValue c) cs
      (some n, rest)
    else (none, c :: cs)

def limited (default : Nat) (cs : List Char) : Option (Nat × List Char) :=
  -- The size of an integer, from one to sixteen bytes.
  match number? cs with
  | (none, rest) => some (default, rest)
  | (some n, rest) => if 1 ≤ n ∧ n ≤ 16 then some (n, rest) else none

def letter? (m : Mode) (c : Char) (cs : List Char) : Option (Letter × List Char) :=
  let plain (i : Item) := some (Letter.item i, cs)
  let sized (f : Nat → Item) (default : Nat) :=
    (limited default cs).map fun (n, rest) => (Letter.item (f n), rest)
  match c with
  | 'b' => plain (.signed 1)
  | 'B' => plain (.unsigned 1)
  | 'h' => plain (.signed 2)
  | 'H' => plain (.unsigned 2)
  | 'l' => plain (.signed 8)
  | 'L' => plain (.unsigned 8)
  | 'j' => plain (.signed 8)
  | 'J' => plain (.unsigned 8)
  | 'T' => plain (.unsigned 8)
  | 'i' => sized .signed 4
  | 'I' => sized .unsigned 4
  | 's' => sized .counted 8
  | 'f' => plain .single
  | 'd' => plain .double
  | 'n' => plain .double
  | 'z' => plain .terminated
  | 'x' => plain .padding
  | 'X' => plain .alignment
  | 'c' =>
    match number? cs with
    | (some n, rest) => some (.item (.chars n), rest)
    | (none, _) => none
  | ' ' => some (.mode m, cs)
  | '<' => some (.mode { m with littleEndian := true }, cs)
  | '>' => some (.mode { m with littleEndian := false }, cs)
  | '=' => some (.mode { m with littleEndian := true }, cs)
  | '!' => (limited 8 cs).map fun (n, rest) => (.mode { m with maxAlign := n }, rest)
  | _ => none

def alignment? (m : Mode) (i : Item) (size : Nat) : Option Nat :=
  -- A size as an alignment, which has to be a power of two once it has been limited.
  if size ≤ 1 || i.isChars then some 1
  else
    let align := min size m.maxAlign
    if align &&& (align - 1) = 0 then some align else none

def field? (m : Mode) (i : Item) (rest : List Char) : Option (Field × List Char) := do
  -- An alignment without a value takes its size from the letter behind it.
  match i with
  | .alignment =>
    let c :: cs := rest | none
    let (.item j, rest) ← letter? m c cs | none
    if j.isChars || j.size = 0 then none
    return (⟨.alignment, ← alignment? m .alignment j.size, m.littleEndian⟩, rest)
  | i => return (⟨i, ← alignment? m i i.size, m.littleEndian⟩, rest)

def fieldsFrom : Nat → Mode → List Char → Option (List Field)
  | 0, _, _ => none
  | _ + 1, _, [] => some []
  | fuel + 1, m, c :: cs => do
    match ← letter? m c cs with
    | (.mode m, rest) => fieldsFrom fuel m rest
    | (.item i, rest) =>
      let (f, rest) ← field? m i rest
      return f :: (← fieldsFrom fuel m rest)

def fields? (format : Bytes) : Option (List Field) :=
  -- The fields of a format, which ends at a zero.
  let cs := (charsOf format).takeWhile (· != '\x00')
  fieldsFrom (cs.length + 1) .initial cs

def Field.gap (f : Field) (pos : Nat) : Nat := (f.align - pos % f.align) % f.align

def zeros (n : Nat) : Bytes := ⟨Array.replicate n 0⟩

def lowBytes : Nat → Nat → List UInt8
  | 0, _ => []
  | size + 1, n => UInt8.ofNat (n % 256) :: lowBytes size (n / 256)

def inOrder (littleEndian : Bool) (bs : List UInt8) : List UInt8 :=
  if littleEndian then bs else bs.reverse

def intBytes (littleEndian : Bool) (size : Nat) (n : Int) : Bytes :=
  ⟨(inOrder littleEndian (lowBytes size (n % Decimal.powTwo (8 * size)).toNat)).toArray⟩

def naturalOf (littleEndian : Bool) (bs : Bytes) : Nat :=
  (inOrder littleEndian bs.toList).foldr (fun b n => n * 256 + b.toNat) 0

def fitsSigned (size : Nat) (n : Int) : Bool :=
  8 ≤ size || (-Decimal.powTwo (8 * size - 1) ≤ n && n < Decimal.powTwo (8 * size - 1))

def fitsUnsigned (size : Nat) (n : Int) : Bool :=
  8 ≤ size || (0 ≤ n && n < Decimal.powTwo (8 * size))

def intOf? (size : Nat) (signed : Bool) (n : Nat) : Option Int64 :=
  -- The integer that a number of some bytes stands for; it has to fit into eight of them.
  let whole : Int :=
    if signed && Decimal.powTwo (8 * size - 1) ≤ n then n - Decimal.powTwo (8 * size) else n
  if size ≤ 8 then some (.ofInt whole)
  else if signed then if fitsInt whole then some (.ofInt whole) else none
  else if whole < 0x10000000000000000 then some (.ofInt whole)
  else none

def packFrom : List Field → List Value → Bytes → Option Bytes
  -- The bytes of the fields behind `done`. Values may be left over.
  | [], _, done => some done
  | f :: fs, vs, done =>
    let start := done ++ zeros (f.gap done.size)
    match f.item, vs with
    | .padding, vs => packFrom fs vs (start.push 0)
    | .alignment, vs => packFrom fs vs start
    | item, v :: vs => do packFrom fs vs (start ++ (← bytesOf? f item v))
    | _, [] => none
where
  bytesOf? (f : Field) : Item → Value → Option Bytes
    | .signed size, v => do
      let n := (← v.toInt?).toInt
      if fitsSigned size n then intBytes f.littleEndian size n else none
    | .unsigned size, v => do
      let n := (← v.toInt?).toInt
      if fitsUnsigned size n then
        intBytes f.littleEndian size (if n < 0 then n + 0x10000000000000000 else n)
      else none
    | .single, v => do
      intBytes f.littleEndian 4 (← v.toNum?).toFloat.toFloat32.toBits.toNat
    | .double, v => do intBytes f.littleEndian 8 (← v.toNum?).toFloat.toBits.toNat
    | .chars size, v => do
      let s ← v.toBytes?
      if s.size ≤ size then s ++ zeros (size - s.size) else none
    | .counted size, v => do
      let s ← v.toBytes?
      if fitsUnsigned size s.size then intBytes f.littleEndian size s.size ++ s else none
    | .terminated, v => do
      let s ← v.toBytes?
      if s.data.contains 0 then none else s.push 0
    | .padding, _ => none
    | .alignment, _ => none

def pack? (format : Bytes) (vs : List Value) : Option Bytes := do
  packFrom (← fields? format) vs ⟨#[]⟩

def sizeLimit : Nat := 0x7fffffff

def sizeFrom : List Field → Nat → Option Nat
  | [], total => some total
  | f :: fs, total =>
    let next := total + f.gap total + f.item.size
    if f.item.hasFixedSize && next ≤ sizeLimit then sizeFrom fs next else none

def size? (format : Bytes) : Option Int64 := do
  return .ofNat (← sizeFrom (← fields? format) 0)

def valueAt? (f : Field) (data : Bytes) (pos : Nat) : Option (List Value × Nat) :=
  let stop := pos + f.item.size
  let whole := data.extract pos stop
  if data.size < stop then none
  else
    match f.item with
    | .signed size => (intOf? size true (naturalOf f.littleEndian whole)).map fun i =>
        ([.int i], stop)
    | .unsigned size => (intOf? size false (naturalOf f.littleEndian whole)).map fun i =>
        ([.int i], stop)
    | .single =>
      some ([.float (Float32.ofBits (.ofNat (naturalOf f.littleEndian whole))).toFloat], stop)
    | .double => some ([.float (Float.ofBits (.ofNat (naturalOf f.littleEndian whole)))], stop)
    | .chars _ => some ([.string whole], stop)
    | .counted size => do
      let length := (← intOf? size false (naturalOf f.littleEndian whole)).toUInt64.toNat
      if data.size < stop + length then none
      return ([.string (data.extract stop (stop + length))], stop + length)
    | .terminated =>
      let text := (data.extract pos data.size).toList.takeWhile (· != 0)
      if data.size ≤ pos + text.length then none
      else some ([.string ⟨text.toArray⟩], pos + text.length + 1)
    | .padding => some ([], stop)
    | .alignment => some ([], stop)

def unpackFrom (data : Bytes) : List Field → Nat → Option (List Value)
  | [], pos => some [.int (.ofNat (pos + 1))]
  | f :: fs, pos => do
    let (vs, next) ← valueAt? f data (pos + f.gap pos)
    return vs ++ (← unpackFrom data fs next)

def unpack? (format data : Bytes) (start : Nat) : Option (List Value) := do
  -- The values of a format from a place of some data on, and behind them the place after the last
  -- one, counted from one.
  if data.size < start then none
  unpackFrom data (← fields? format) start

end CallGuard.Lua.Packing
