import CallGuard.Decimal.Fixed
import CallGuard.Lua.Value

set_option autoImplicit false

namespace CallGuard.Lua

inductive Num
  | int (value : Int64)
  | float (value : Float)

instance : Inhabited Num := ⟨.int 0⟩

def Value.ofNum : Num → Value
  | .int i => .int i
  | .float x => .float x

def Value.number? : Value → Option Num
  | .int i => some (.int i)
  | .float x => some (.float x)
  | _ => none

def smallestInt : Int := -0x8000000000000000

def intBound : Int := 0x8000000000000000

def floorOf (x : Float) : Int :=
  match Decimal.parts x with
  | .finite b =>
    let n : Int := if b.negative then -(b.mantissa : Int) else b.mantissa
    if 0 ≤ b.exponent then n * Decimal.powTwo b.exponent.toNat
    else n / Decimal.powTwo (-b.exponent).toNat
  | _ => 0

def fitsInt (i : Int) : Bool := smallestInt ≤ i && i < intBound

def exactInt? (x : Float) : Option Int64 :=
  if x.isFinite then
    let i := floorOf x
    if Float.ofInt i == x && fitsInt i then some (.ofInt i) else none
  else none

def floorInt? (x : Float) : Option Int64 :=
  if x.isFinite && fitsInt (floorOf x) then some (.ofInt (floorOf x)) else none

def ceilInt? (x : Float) : Option Int64 :=
  let i := -floorOf (-x)
  if x.isFinite && fitsInt i then some (.ofInt i) else none

def compareIntFloat (i : Int64) (x : Float) : Option Ordering :=
  -- Where an integer lies relative to a double, which may be NaN.
  if x.isNaN then none
  else if !x.isFinite then some (if 0 < x then .lt else .gt)
  else
    let whole := floorOf x
    if i.toInt < whole then some .lt
    else if whole < i.toInt then some .gt
    else if Float.ofInt whole == x then some .eq else some .lt

def compareFloats (x y : Float) : Option Ordering :=
  if x < y then some .lt else if y < x then some .gt else if x == y then some .eq else none

namespace Num

def compare : Num → Num → Option Ordering
  | int a, int b => some (Ord.compare a.toInt b.toInt)
  | float x, float y => compareFloats x y
  | int a, float y => compareIntFloat a y
  | float x, int b => (compareIntFloat b x).map Ordering.swap

def same (a b : Num) : Bool := a.compare b == some .eq

def toFloat : Num → Float
  | int i => Float.ofInt i.toInt
  | float x => x

def toInt? : Num → Option Int64
  | int i => some i
  | float x => exactInt? x

end Num

def remainder (x y : Float) : Float :=
  match Decimal.parts x, Decimal.parts y with
  | .finite a, .finite b =>
    if b.mantissa = 0 then 0 / 0
    else
      let e := min a.exponent b.exponent
      let m := a.mantissa * Decimal.powTwo (a.exponent - e).toNat
      let n := b.mantissa * Decimal.powTwo (b.exponent - e).toNat
      Decimal.toFloatBinary a.negative (m % n) e
  | .finite _, .infinite _ => x
  | _, _ => 0 / 0

def modulo (x y : Float) : Float :=
  let r := remainder x y
  if (if 0 < r then y < 0 else r < 0 && y != r) then r + y else r

def floorQuotient (x y : Float) : Float := (x / y).floor

def power (x y : Float) : Float := if y == 2 then x * x else x.pow y

def shiftLeft (a b : Int64) : Int64 :=
  -- Bits move towards the greater places, or the other way by a negative number of places. All are
  -- lost when there are as many places as bits.
  let n := b.toInt
  if n ≤ -64 ∨ 64 ≤ n then 0
  else if 0 ≤ n then (a.toUInt64 <<< UInt64.ofNat n.toNat).toInt64
  else (a.toUInt64 >>> UInt64.ofNat (-n).toNat).toInt64

inductive Arith
  | add
  | sub
  | mul
  | div
  | floorDiv
  | mod
  | pow
deriving DecidableEq, Repr

def Arith.ofInts (a b : Int64) : Arith → Option Num
  -- There is no quotient of an integer by zero.
  | .add => some (.int (a + b))
  | .sub => some (.int (a - b))
  | .mul => some (.int (a * b))
  | .div => some (.float (Float.ofInt a.toInt / Float.ofInt b.toInt))
  | .pow => some (.float (power (Float.ofInt a.toInt) (Float.ofInt b.toInt)))
  | .floorDiv => if b = 0 then none else some (.int (.ofInt (a.toInt.fdiv b.toInt)))
  | .mod => if b = 0 then none else some (.int (.ofInt (a.toInt.fmod b.toInt)))

def Arith.ofFloats (x y : Float) : Arith → Float
  | .add => x + y
  | .sub => x - y
  | .mul => x * y
  | .div => x / y
  | .floorDiv => floorQuotient x y
  | .mod => modulo x y
  | .pow => power x y

def Arith.apply (op : Arith) : Num → Num → Option Num
  | .int a, .int b => op.ofInts a b
  | a, b => some (.float (op.ofFloats a.toFloat b.toFloat))

inductive Bitwise
  | and
  | or
  | xor
  | shiftLeft
  | shiftRight
deriving DecidableEq, Repr

def Bitwise.apply (a b : Int64) : Bitwise → Int64
  | .and => a &&& b
  | .or => a ||| b
  | .xor => a ^^^ b
  | .shiftLeft => Lua.shiftLeft a b
  | .shiftRight => if b.toInt ≤ -64 then 0 else Lua.shiftLeft a (-b)

def floatText (x : Float) : String :=
  -- A finite double has fourteen significant digits, and a point even where it is integral.
  match Decimal.parts x with
  | .nan => "-nan"
  | .infinite negative => if negative then "-inf" else "inf"
  | .finite b =>
    let text := (if b.negative then "-" else "") ++ Decimal.generalText b 14 false
    if text.toList.all fun c => c.isDigit || c == '-' then text ++ ".0" else text

def Num.text : Num → String
  | .int i => toString i.toInt
  | .float x => floatText x

def isSpace (c : Char) : Bool := c == ' ' || (9 ≤ c.toNat && c.toNat ≤ 13)

def isHexDigit (c : Char) : Bool :=
  c.isDigit || ('a' ≤ c && c ≤ 'f') || ('A' ≤ c && c ≤ 'F')

def digitValue (c : Char) : Nat :=
  if c.isDigit then c.toNat - 48 else if 'a' ≤ c then c.toNat - 87 else c.toNat - 55

def decimalOf (cs : List Char) : Nat := cs.foldl (fun n c => 10 * n + digitValue c) 0

def hexOf (cs : List Char) : Nat := cs.foldl (fun n c => 16 * n + digitValue c) 0

structure Numeral where
  whole : List Char
  fraction : List Char
  point : Bool
  exponent : Option Int

def exponentOf? (cs : List Char) : Option Int :=
  -- Reads an exponent, whose sign is optional. It has to go on to the end.
  let (negative, digits) := match cs with
    | '-' :: rest => (true, rest)
    | '+' :: rest => (false, rest)
    | rest => (false, rest)
  if digits.isEmpty || !digits.all Char.isDigit then none
  else some (if negative then -(decimalOf digits : Int) else decimalOf digits)

def Numeral.ofChars? (isDigit : Char → Bool) (mark : Char) (cs : List Char) : Option Numeral :=
  let whole := cs.takeWhile isDigit
  let (point, fraction, rest) := match cs.dropWhile isDigit with
    | '.' :: rest => (true, rest.takeWhile isDigit, rest.dropWhile isDigit)
    | rest => (false, [], rest)
  if whole.isEmpty && fraction.isEmpty then none
  else
    match rest with
    | [] => some ⟨whole, fraction, point, none⟩
    | c :: rest =>
      if c.toLower == mark then
        (exponentOf? rest).map fun e => ⟨whole, fraction, point, some e⟩
      else none

def Numeral.decimal (negative : Bool) (n : Numeral) : Num :=
  -- Without point and exponent a numeral is an integer as long as it fits.
  let coefficient := decimalOf (n.whole ++ n.fraction)
  let signed : Int := if negative then -(coefficient : Int) else coefficient
  if !n.point && n.exponent.isNone && fitsInt signed then .int (.ofInt signed)
  else
    .float (Decimal.toFloat negative coefficient (n.exponent.getD 0 - n.fraction.length))

def Numeral.hexadecimal (negative : Bool) (n : Numeral) : Num :=
  -- A hexadecimal integer wraps around.
  let coefficient := hexOf (n.whole ++ n.fraction)
  let signed : Int := if negative then -(coefficient : Int) else coefficient
  if !n.point && n.exponent.isNone then .int (.ofInt signed)
  else
    .float (Decimal.toFloatBinary negative coefficient
      (n.exponent.getD 0 - 4 * n.fraction.length))

def Num.ofChars? (cs : List Char) : Option Num :=
  let trimmed := ((cs.dropWhile isSpace).reverse.dropWhile isSpace).reverse
  let (negative, rest) := match trimmed with
    | '-' :: rest => (true, rest)
    | '+' :: rest => (false, rest)
    | rest => (false, rest)
  match rest with
  | '0' :: x :: digits =>
    if x == 'x' || x == 'X' then
      (Numeral.ofChars? isHexDigit 'p' digits).map (Numeral.hexadecimal negative)
    else (Numeral.ofChars? Char.isDigit 'e' rest).map (Numeral.decimal negative)
  | _ => (Numeral.ofChars? Char.isDigit 'e' rest).map (Numeral.decimal negative)

def charsOf (s : Bytes) : List Char := s.toList.map fun b => Char.ofNat b.toNat

def Num.ofBytes? (s : Bytes) : Option Num := Num.ofChars? (charsOf s)

def Value.toNum? : Value → Option Num
  | .string s => Num.ofBytes? s
  | v => v.number?

def Value.toBytes? : Value → Option Bytes
  | .string s => some s
  | .int i => some (.ofText (Num.text (.int i)))
  | .float x => some (.ofText (Num.text (.float x)))
  | _ => none

def Value.toInt? (v : Value) : Option Int64 := v.toNum?.bind Num.toInt?

def Value.same : Value → Value → Bool
  -- Equality without any conversion but between the two kinds of numbers.
  | .nil, .nil => true
  | .bool a, .bool b => a == b
  | .int a, .int b => a == b
  | .float a, .float b => a == b
  | .int a, .float b => compareIntFloat a b == some .eq
  | .float a, .int b => compareIntFloat b a == some .eq
  | .string a, .string b => a == b
  | .table a, .table b => a == b
  | .function a, .function b => a == b
  | .native a, .native b => a == b
  | _, _ => false

def compareBytes (a b : Bytes) : Ordering := Ord.compare a.toList b.toList

def Value.order? : Value → Value → Option (Option Ordering)
  | .string a, .string b => some (some (compareBytes a b))
  | a, b =>
    match a.number?, b.number? with
    | some m, some n => some (m.compare n)
    | _, _ => none

def Value.toKey? : Value → Option Key
  | .nil => none
  | .bool b => some (.bool b)
  | .int i => some (.int i)
  | .float x =>
    if x.isNaN then none
    else
      match exactInt? x with
      | some i => some (.int i)
      | none => some (.float x.toBits)
  | .string s => some (.string s)
  | .table id => some (.table id)
  | .function id => some (.function id)
  | .native n => some (.native n)

end CallGuard.Lua
