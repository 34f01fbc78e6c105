import CallGuard.Lua.Number

set_option autoImplicit false

namespace CallGuard.Lua

def addressText (kind : String) (id : Nat) : String :=
  let digits := String.ofList (Nat.toDigits 16 (0x5500000000 + 64 * id))
  kind ++ ": 0x" ++ String.ofList (List.replicate (14 - digits.length) '0') ++ digits

def Value.display : Value → Bytes
  | .nil => .ofText "nil"
  | .bool b => .ofText (if b then "true" else "false")
  | .int i => .ofText (Num.text (.int i))
  | .float x => .ofText (floatText x)
  | .string s => s
  | .table id => .ofText (addressText "table" id)
  | .function id => .ofText (addressText "function" id)
  | .native _ => .ofText (addressText "function" 0)

structure Conversion where
  flags : List Char
  width : Nat
  precision : Option Nat
  kind : Char

namespace Conversion

def hasFlag (c : Conversion) (flag : Char) : Bool := c.flags.contains flag

def blanks (n : Nat) : String := String.ofList (List.replicate n ' ')

def zeros (n : Nat) : String := String.ofList (List.replicate n '0')

def padNumber (c : Conversion) (mayZero : Bool) (sign digits : String) : String :=
  -- Fills a number up to the width: behind it, or in front, where zeros come after the sign.
  let missing := c.width - (sign.length + digits.length)
  if c.hasFlag '-' then sign ++ digits ++ blanks missing
  else if c.hasFlag '0' && mayZero then sign ++ zeros missing ++ digits
  else blanks missing ++ sign ++ digits

def padBytes (c : Conversion) (s : Bytes) : Bytes :=
  let fill := Bytes.ofText (blanks (c.width - s.size))
  if c.hasFlag '-' then s ++ fill else fill ++ s

def signOf (c : Conversion) (negative : Bool) : String :=
  if negative then "-"
  else if c.hasFlag '+' then "+"
  else if c.hasFlag ' ' then " "
  else ""

def digitsOf (c : Conversion) (base n : Nat) : String :=
  -- Digits with zeros in front up to the precision; zero has no digits when that is zero.
  let digits := if n = 0 ∧ c.precision = some 0 then "" else String.ofList (Nat.toDigits base n)
  zeros (c.precision.getD 1 - digits.length) ++ digits

def upper (s : String) : String := String.ofList (s.toList.map Char.toUpper)

def integerText (c : Conversion) (i : Int64) : String :=
  let mayZero := c.precision.isNone
  let unsigned := i.toUInt64.toNat
  match c.kind with
  | 'u' => c.padNumber mayZero "" (c.digitsOf 10 unsigned)
  | 'o' =>
    let digits := c.digitsOf 8 unsigned
    let start := if c.hasFlag '#' && !digits.startsWith "0" then "0" else ""
    c.padNumber mayZero "" (start ++ digits)
  | 'x' =>
    let start := if c.hasFlag '#' && unsigned != 0 then "0x" else ""
    c.padNumber mayZero start (c.digitsOf 16 unsigned)
  | 'X' =>
    let start := if c.hasFlag '#' && unsigned != 0 then "0X" else ""
    c.padNumber mayZero start (upper (c.digitsOf 16 unsigned))
  | _ => c.padNumber mayZero (c.signOf (i.toInt < 0)) (c.digitsOf 10 i.toInt.natAbs)

def hexDigits (n places : Nat) : String :=
  let digits := String.ofList (Nat.toDigits 16 n)
  zeros (places - digits.length) ++ digits

def dropZeros (s : String) : String :=
  String.ofList (s.toList.reverse.dropWhile (· == '0')).reverse

def hexFloatText (b : Decimal.Binary) (precision : Option Nat) (keepPoint : Bool) : String :=
  -- A power of two with a hexadecimal factor, whose leading digit is one unless the number is
  -- smaller than all normal ones.
  if b.mantissa = 0 then
    let fraction := zeros (precision.getD 0)
    let point := if keepPoint || fraction != "" then "." else ""
    "0x0" ++ point ++ fraction ++ "p+0"
  else
    let normal := 0x10000000000000 ≤ b.mantissa
    let exponent : Int := b.exponent + 52
    let (lead, fraction) := match precision with
      | none =>
        (if normal then 1 else 0, dropZeros (hexDigits (b.mantissa % 0x10000000000000) 13))
      | some p =>
        let places := 52 - 4 * p
        let n := if p < 13 then Decimal.roundHalfEven b.mantissa (Decimal.powTwo places)
          else b.mantissa * Decimal.powTwo (4 * (p - 13))
        (n / Decimal.powTwo (4 * p),
          if p = 0 then "" else hexDigits (n % Decimal.powTwo (4 * p)) p)
    let point := if keepPoint || fraction != "" then "." else ""
    "0x" ++ toString lead ++ point ++ fraction ++ "p" ++ (if exponent < 0 then "-" else "+") ++
      toString exponent.natAbs

def floatDigits (c : Conversion) (b : Decimal.Binary) : String :=
  let places := c.precision.getD 6
  let keep := c.hasFlag '#'
  match c.kind.toLower with
  | 'e' => Decimal.scientificText b places keep
  | 'g' => Decimal.generalText b places keep
  | 'a' => hexFloatText b c.precision keep
  | _ => Decimal.fixedText b places keep

def floatText (c : Conversion) (x : Float) : String :=
  let cased (s : String) := if c.kind.isUpper then upper s else s
  match Decimal.parts x with
  | .nan => c.padNumber false "-" (cased "nan")
  | .infinite negative => c.padNumber false (c.signOf negative) (cased "inf")
  | .finite b =>
    let digits := cased (floatDigits c b)
    if c.kind.toLower == 'a' then
      c.padNumber true (c.signOf b.negative ++ String.ofList (digits.toList.take 2))
        (String.ofList (digits.toList.drop 2))
    else c.padNumber true (c.signOf b.negative) digits

def stringBytes (c : Conversion) (s : Bytes) : Bytes :=
  match c.precision with
  | some p => c.padBytes (s.extract 0 p)
  | none => c.padBytes s

end Conversion

def twoDigits (cs : List Char) : Nat × List Char :=
  let digits := (cs.take 2).takeWhile Char.isDigit
  (decimalOf digits, cs.drop digits.length)

def isLayoutChar (c : Char) : Bool := c.isDigit || ['-', '+', '#', ' ', '.'].contains c

def Conversion.ofChars? (allowed : List Char) (mayHavePrecision : Bool) (layout : List Char)
    (kind : Char) : Option Conversion :=
  -- A conversion from what stands after the percent sign, with the flags that its kind takes. A
  -- width does not begin with a zero.
  let flags := layout.takeWhile allowed.contains
  let rest := layout.dropWhile allowed.contains
  if rest.head? == some '0' then none
  else
    let (width, rest) := twoDigits rest
    match rest with
    | [] => some ⟨flags, width, none, kind⟩
    | '.' :: rest =>
      let (precision, rest) := twoDigits rest
      if mayHavePrecision && rest.isEmpty then some ⟨flags, width, some precision, kind⟩ else none
    | _ => none

def quotedByte (b : UInt8) (next : Option UInt8) : List UInt8 :=
  -- A byte of a string that can be read back. A control is written by its number, with three digits
  -- where one follows.
  if b = 34 ∨ b = 92 ∨ b = 10 then [92, b]
  else if b < 32 ∨ b = 127 then
    let digits := toString b.toNat
    let padded := match next with
      | some d =>
        if 48 ≤ d && d ≤ 57 then Conversion.zeros (3 - digits.length) ++ digits else digits
      | none => digits
    92 :: padded.toUTF8.toList
  else [b]

def quotedBytes : List UInt8 → List UInt8
  | [] => []
  | b :: rest => quotedByte b rest.head? ++ quotedBytes rest

def Value.literal? : Value → Option Bytes
  -- A value as it is written in Lua; tables and functions cannot be.
  | .string s => some ⟨([34] ++ quotedBytes s.toList ++ [34]).toArray⟩
  | .int i =>
    if i = Int64.minValue then some (.ofText "0x8000000000000000")
    else some (.ofText (Num.text (.int i)))
  | .float x =>
    match Decimal.parts x with
    | .nan => some (.ofText "(0/0)")
    | .infinite negative => some (.ofText (if negative then "-1e9999" else "1e9999"))
    | .finite b =>
      some (.ofText ((if b.negative then "-" else "") ++ Conversion.hexFloatText b none false))
  | .nil => some (.ofText "nil")
  | .bool b => some (.ofText (if b then "true" else "false"))
  | _ => none

def formatOne? (layout : List Char) (kind : Char) (v : Value) : Option Bytes :=
  let integer (allowed : List Char) : Option Bytes := do
    let c ← Conversion.ofChars? allowed true layout kind
    let i ← v.toInt?
    return .ofText (c.integerText i)
  match kind with
  | 'd' => integer ['-', '+', '0', ' ']
  | 'i' => integer ['-', '+', '0', ' ']
  | 'u' => integer ['-', '0']
  | 'o' => integer ['-', '#', '0']
  | 'x' => integer ['-', '#', '0']
  | 'X' => integer ['-', '#', '0']
  | 'c' => do
    let c ← Conversion.ofChars? ['-'] false layout kind
    let i ← v.toInt?
    return c.padBytes ⟨#[i.toUInt64.toUInt8]⟩
  | 's' => do
    if layout.isEmpty then return v.display
    let s := v.display
    let c ← Conversion.ofChars? ['-'] true layout kind
    if s.toList.contains 0 then none
    if c.precision.isNone && 100 ≤ s.size then return s
    return c.stringBytes s
  | 'q' => if layout.isEmpty then v.literal? else none
  | 'p' => do
    let c ← Conversion.ofChars? ['-'] false layout kind
    match v with
    | .table id => return c.padBytes (.ofText ((addressText "" id).drop 2).toString)
    | .function id => return c.padBytes (.ofText ((addressText "" id).drop 2).toString)
    | .native _ => return c.padBytes (.ofText ((addressText "" 0).drop 2).toString)
    | .string _ => return c.padBytes (.ofText ((addressText "" 0).drop 2).toString)
    | _ => return c.padBytes (.ofText "(null)")
  | kind =>
    if ['a', 'A', 'e', 'E', 'f', 'g', 'G'].contains kind then do
      let c ← Conversion.ofChars? ['-', '+', '#', '0', ' '] true layout kind
      let n ← v.toNum?
      return .ofText (c.floatText n.toFloat)
    else none

def layoutLimit : Nat := 20

def formatAll : Nat → Bytes → List Char → List Value → Option Bytes
  -- The characters of a format with values put in for its conversions. Values may be left over.
  | 0, _, _, _ => none
  | _ + 1, done, [], _ => some done
  | fuel + 1, done, '%' :: '%' :: rest, vs => formatAll fuel (done.push 37) rest vs
  | fuel + 1, done, '%' :: rest, vs =>
    let layout := rest.takeWhile isLayoutChar
    match rest.dropWhile isLayoutChar, vs with
    | kind :: rest, v :: vs =>
      if layoutLimit < layout.length then none
      else
        match formatOne? layout kind v with
        | some text => formatAll fuel (done ++ text) rest vs
        | none => none
    | _, _ => none
  | fuel + 1, done, c :: rest, vs => formatAll fuel (done.push (.ofNat c.toNat)) rest vs

def format? (format : Bytes) (vs : List Value) : Option Bytes :=
  formatAll (format.size + 1) ⟨#[]⟩ (charsOf format) vs

end CallGuard.Lua
