import CallGuard.Decimal.Double

set_option autoImplicit false

namespace CallGuard.Cel

inductive Token
  | word (name : String)
  -- A field name in back quotes, which belong to the name.
  | escapedWord (name : String)
  | int (value : Nat) (hexadecimal : Bool)
  | uint (value : Nat)
  | double (value : Float)
  | string (value : String)
  | bytes (value : List UInt8)
  | mark (text : String)

namespace Token

def isSpace (c : Char) : Bool :=
  c == '\t' || c == ' ' || c == '\r' || c == '\n' || c == '\x0c'

def isWordStart (c : Char) : Bool := c.isAlpha || c == '_'

def isWordPart (c : Char) : Bool := c.isAlphanum || c == '_'

def hexValue? (c : Char) : Option Nat :=
  if c.isDigit then some (c.toNat - 48)
  else if 'a' ≤ c ∧ c ≤ 'f' then some (c.toNat - 87)
  else if 'A' ≤ c ∧ c ≤ 'F' then some (c.toNat - 55)
  else none

def isHex (c : Char) : Bool := (hexValue? c).isSome

def isOctal (c : Char) : Bool := '0' ≤ c && c ≤ '7'

def hexNumber (cs : List Char) : Nat :=
  cs.foldl (fun n c => 16 * n + (hexValue? c).getD 0) 0

def decimalNumber (cs : List Char) : Nat :=
  cs.foldl (fun n c => 10 * n + (c.toNat - 48)) 0

def octalNumber (cs : List Char) : Nat :=
  cs.foldl (fun n c => 8 * n + (c.toNat - 48)) 0

def escapeLength? : List Char → Option Nat
  | c :: rest =>
    let hex (n : Nat) :=
      if (rest.take n).length = n ∧ (rest.take n).all isHex then some (n + 1) else none
    if ['a', 'b', 'f', 'n', 'r', 't', 'v', '"', '\'', '\\', '?', '\x60'].contains c then some 1
    else if c = 'x' ∨ c = 'X' then hex 2
    else if c = 'u' then hex 4
    else if c = 'U' then hex 8
    else if '0' ≤ c ∧ c ≤ '3' then
      match rest with
      | a :: b :: _ => if isOctal a && isOctal b then some 3 else none
      | _ => none
    else none
  | [] => none

def quotedPart? (quotes : List Char) (raw : Bool) : Nat → List Char →
    Option (List Char × List Char)
  | 0, _ => none
  | fuel + 1, cs =>
    if cs.take quotes.length = quotes then some (quotes, cs.drop quotes.length)
    else
      match cs with
      | [] => none
      | '\\' :: rest =>
        if raw then (quotedPart? quotes raw fuel rest).map fun (part, rest) => ('\\' :: part, rest)
        else
          match escapeLength? rest with
          | none => none
          | some n => (quotedPart? quotes raw fuel (rest.drop n)).map fun (part, after) =>
              ('\\' :: rest.take n ++ part, after)
      | c :: rest =>
        if quotes.length = 1 ∧ (c = '\n' ∨ c = '\r') then none
        else (quotedPart? quotes raw fuel rest).map fun (part, rest) => (c :: part, rest)

def quoted? (raw : Bool) (cs : List Char) : Option (List Char × List Char) :=
  -- A literal with its quotes: three of them if the text closes them, else one.
  match cs with
  | q :: rest =>
    if q = '"' ∨ q = '\'' then
      let fuel := cs.length + 1
      let triple := [q, q, q]
      let long :=
        if cs.take 3 = triple then
          (quotedPart? triple raw fuel (cs.drop 3)).map fun (part, rest) => (triple ++ part, rest)
        else none
      match long with
      | some found => some found
      | none => (quotedPart? [q] raw fuel rest).map fun (part, rest) => (q :: part, rest)
    else none
  | [] => none

def charOfCode? (n : Nat) : Option Char := if n.isValidChar then some (Char.ofNat n) else none

def simpleEscape? : Char → Option Char
  | 'a' => some '\x07'
  | 'b' => some '\x08'
  | 'v' => some '\x0b'
  | 'f' => some '\x0c'
  | 'n' => some '\n'
  | 'r' => some '\r'
  | 't' => some '\t'
  | '\\' => some '\\'
  | '?' => some '?'
  | '\x60' => some '\x60'
  | _ => none

structure Open where
  single : Bool
  double : Bool

def Open.any (o : Open) : Bool := o.single || o.double

def Open.toggle? (o : Open) (c : Char) : Option Open :=
  -- A quote opens or closes, unless the other kind is open; then it is a character.
  if c = '\'' ∧ !o.double then some { o with single := !o.single }
  else if c = '"' ∧ !o.single then some { o with double := !o.double }
  else none

def unquote? (o : Open) : List Char → Option (List Char)
  -- The characters between the quotes. An escaped quote keeps its backslash when the other kind of
  -- quote is open.
  | [] => if o.any then none else some []
  | '\\' :: '\'' :: rest =>
    if !o.any then none
    else
      (unquote? o rest).map fun s => if o.double then '\\' :: '\'' :: s else '\'' :: s
  | '\\' :: '"' :: rest =>
    if !o.any then none
    else
      (unquote? o rest).map fun s => if o.single then '\\' :: '"' :: s else '"' :: s
  | '\\' :: 'x' :: a :: b :: rest =>
    if !o.any then none
    else
      match charOfCode? (hexNumber [a, b]) with
      | some c => (unquote? o rest).map (c :: ·)
      | none => none
  | '\\' :: 'u' :: a :: b :: c :: d :: rest =>
    if !o.any then none
    else
      match charOfCode? (hexNumber [a, b, c, d]) with
      | some c => (unquote? o rest).map (c :: ·)
      | none => none
  | '\\' :: 'U' :: a :: b :: c :: d :: e :: f :: g :: h :: rest =>
    if !o.any then none
    else
      match charOfCode? (hexNumber [a, b, c, d, e, f, g, h]) with
      | some c => (unquote? o rest).map (c :: ·)
      | none => none
  | '\\' :: c :: rest =>
    if !o.any then none
    else
      match simpleEscape? c with
      | some c => (unquote? o rest).map (c :: ·)
      | none =>
        if '0' ≤ c ∧ c ≤ '3' then
          match rest with
          | a :: b :: rest =>
            (unquote? o rest).map (Char.ofNat (octalNumber [c, a, b]) :: ·)
          | _ => none
        else none
  | c :: rest =>
    match o.toggle? c with
    | some o => unquote? o rest
    | none => if o.any then (unquote? o rest).map (c :: ·) else none

def unquoteRaw? (o : Open) : List Char → Option (List Char)
  -- The characters of a raw literal: a backslash is a character, except before the quote that is
  -- open.
  | [] => some []
  | '\\' :: c :: rest =>
    if !o.any then none
    else
      let closing := (c = '"' ∧ !o.single) ∨ (c = '\'' ∧ !o.double)
      (unquoteRaw? o rest).map fun s => if closing then c :: s else '\\' :: c :: s
  | c :: rest =>
    match o.toggle? c with
    | some o => unquoteRaw? o rest
    | none => if o.any then (unquoteRaw? o rest).map (c :: ·) else none

def byteValues? : List Char → Option (List UInt8)
  -- The bytes of a literal. Only escapes of single bytes are known, and a character stands for its
  -- UTF-8 form.
  | [] => some []
  | '\\' :: 'x' :: a :: b :: rest =>
    if isHex a && isHex b then
      (byteValues? rest).map (UInt8.ofNat (hexNumber [a, b]) :: ·)
    else none
  | '\\' :: c :: a :: b :: rest =>
    if '0' ≤ c && c ≤ '3' && isOctal a && isOctal b then
      (byteValues? rest).map (UInt8.ofNat (octalNumber [c, a, b]) :: ·)
    else none
  | '\\' :: _ => none
  | c :: rest => (byteValues? rest).map (c.toString.toUTF8.toList ++ ·)

def stringToken? (raw : Bool) (cs : List Char) : Option (Token × List Char) :=
  match quoted? raw cs with
  | none => none
  | some (part, rest) =>
    let value := if raw then unquoteRaw? ⟨false, false⟩ part else unquote? ⟨false, false⟩ part
    value.map fun s => (.string (String.ofList s), rest)

def bytesToken? (start : Char) (raw : Option Char) (cs : List Char) :
    Option (Token × List Char) :=
  -- The first two characters and the last of a literal are taken off before its bytes are read.
  match quoted? raw.isSome cs with
  | none => none
  | some (part, rest) =>
    let whole := start :: raw.toList ++ part
    (byteValues? ((whole.drop 2).dropLast)).map fun bs => (.bytes bs, rest)

def isQuote : List Char → Bool
  | '"' :: _ => true
  | '\'' :: _ => true
  | _ => false

def exponentPart? : List Char → Option (Bool × List Char × List Char)
  | c :: rest =>
    if c = 'e' ∨ c = 'E' then
      let (negative, rest) := match rest with
        | '+' :: rest => (false, rest)
        | '-' :: rest => (true, rest)
        | rest => (false, rest)
      let digits := rest.takeWhile Char.isDigit
      if digits.isEmpty then none else some (negative, digits, rest.dropWhile Char.isDigit)
    else none
  | [] => none

def doubleToken? (whole fraction : List Char) (exponent : Option (Bool × List Char))
    (rest : List Char) : Option (Token × List Char) :=
  -- A double must be finite.
  let e : Int := match exponent with
    | none => 0
    | some (negative, digits) =>
      if negative then -(decimalNumber digits : Int) else decimalNumber digits
  let x := Decimal.toFloat false (decimalNumber (whole ++ fraction)) (e - fraction.length)
  if x.isInf then none else some (.double x, rest)

def numberToken? (cs : List Char) : Option (Token × List Char) :=
  let whole := cs.takeWhile Char.isDigit
  let rest := cs.dropWhile Char.isDigit
  let suffixed (n : Nat) (hexadecimal : Bool) : List Char → Option (Token × List Char)
    | 'u' :: rest => if n < 0x10000000000000000 then some (.uint n, rest) else none
    | 'U' :: rest => if n < 0x10000000000000000 then some (.uint n, rest) else none
    | rest => some (.int n hexadecimal, rest)
  let plain :=
    match exponentPart? rest with
    | some (negative, digits, rest) => doubleToken? whole [] (some (negative, digits)) rest
    | none => suffixed (decimalNumber whole) false rest
  match whole, rest with
  | ['0'], 'x' :: after =>
    let digits := after.takeWhile isHex
    if digits.isEmpty then some (.int 0 false, rest)
    else suffixed (hexNumber digits) true (after.dropWhile isHex)
  | _, '.' :: after =>
    let fraction := after.takeWhile Char.isDigit
    if fraction.isEmpty then plain
    else
      let rest := after.dropWhile Char.isDigit
      match exponentPart? rest with
      | some (negative, digits, rest) =>
        doubleToken? whole fraction (some (negative, digits)) rest
      | none => doubleToken? whole fraction none rest
  | _, _ => plain

def marks : List String :=
  ["==", "!=", "<=", ">=", "&&", "||", "<", ">", "[", "]", "\x7b", "\x7d", "(", ")", ".", ",",
    "-", "!", "?", ":", "+", "*", "/", "%"]

def markToken? (cs : List Char) : Option (Token × List Char) :=
  (marks.find? fun m => cs.take m.length = m.toList).map fun m => (.mark m, cs.drop m.length)

def isEscapedWordPart (c : Char) : Bool :=
  c.isAlphanum || c == '_' || c == '.' || c == '-' || c == '/' || c == ' '

def next? (cs : List Char) : Option (Token × List Char) :=
  match cs with
  | [] => none
  | c :: rest =>
    let word := (Token.word (String.ofList (cs.takeWhile isWordPart)), cs.dropWhile isWordPart)
    if (c = 'r' ∨ c = 'R') ∧ isQuote rest then
      (stringToken? true rest)
    else if (c = 'b' ∨ c = 'B') ∧ isQuote rest then bytesToken? c none rest
    else if c = 'b' ∨ c = 'B' then
      match rest with
      | r :: after =>
        if (r = 'r' ∨ r = 'R') ∧ isQuote after then bytesToken? c (some r) after
        else some word
      | [] => some word
    else if isWordStart c then some word
    else if isQuote cs then stringToken? false cs
    else if c.isDigit then numberToken? cs
    else if c = '.' ∧ (rest.take 1).all Char.isDigit ∧ rest ≠ [] then numberToken? cs
    else if c = '\x60' then
      let name := rest.takeWhile isEscapedWordPart
      match name, rest.dropWhile isEscapedWordPart with
      | [], _ => none
      | _, '\x60' :: rest => some (.escapedWord (String.ofList ('\x60' :: name ++ ['\x60'])), rest)
      | _, _ => none
    else markToken? cs

def skip : List Char → List Char
  | [] => []
  | '/' :: '/' :: rest => skipLine rest
  | c :: rest => if isSpace c then skip rest else c :: rest
where
  skipLine : List Char → List Char
    | [] => []
    | c :: rest => if c = '\n' then skip rest else skipLine rest

def allFrom? : Nat → List Char → Option (List Token)
  | 0, _ => none
  | fuel + 1, cs =>
    match skip cs with
    | [] => some []
    | cs =>
      match next? cs with
      | none => none
      | some (t, rest) => (allFrom? fuel rest).map (t :: ·)

def all? (text : String) : Option (List Token) :=
  match text.toList with
  | '/' :: '/' :: _ => none
  | cs => allFrom? (cs.length + 1) cs

end Token

end CallGuard.Cel
