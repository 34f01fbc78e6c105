import CallGuard.Lua.Number

set_option autoImplicit false

namespace CallGuard.Lua

inductive Token
  | name (name : String)
  | keyword (word : String)
  | symbol (text : String)
  | number (value : Num)
  | string (value : Bytes)

structure Lexeme where
  token : Token
  line : Nat

namespace Token

def keywords : List String :=
  ["and", "break", "do", "else", "elseif", "end", "false", "for", "function", "goto", "if", "in",
    "local", "nil", "not", "or", "repeat", "return", "then", "true", "until", "while"]

-- Symbols of more than one character; of two that begin alike the longer comes first.
def longSymbols : List String := ["...", "..", "==", "<=", "<<", ">=", ">>", "//", "~=", "::"]

def isNameStart (c : Char) : Bool := ('a' ≤ c && c ≤ 'z') || ('A' ≤ c && c ≤ 'Z') || c == '_'

def isNameChar (c : Char) : Bool := isNameStart c || c.isDigit

def isLineEnd (c : Char) : Bool := c == '\n' || c == '\r'

def afterLineEnd : List Char → List Char
  | '\r' :: '\n' :: rest => rest
  | '\n' :: '\r' :: rest => rest
  | _ :: rest => rest
  | [] => []

def bytesOf (cs : List Char) : List UInt8 := cs.flatMap fun c => c.toString.toUTF8.toList

def utf8Escape (n : Nat) : List UInt8 :=
  -- The bytes of a code point, of which there are more than characters: up to 31 bits.
  let tail (shift : Nat) : UInt8 := .ofNat (0x80 + (n >>> shift) % 64)
  if n < 0x80 then [.ofNat n]
  else if n < 0x800 then [.ofNat (0xc0 + (n >>> 6)), tail 0]
  else if n < 0x10000 then [.ofNat (0xe0 + (n >>> 12)), tail 6, tail 0]
  else if n < 0x200000 then [.ofNat (0xf0 + (n >>> 18)), tail 12, tail 6, tail 0]
  else if n < 0x4000000 then [.ofNat (0xf8 + (n >>> 24)), tail 18, tail 12, tail 6, tail 0]
  else [.ofNat (0xfc + (n >>> 30)), tail 24, tail 18, tail 12, tail 6, tail 0]

def simpleEscape? : Char → Option UInt8
  | 'a' => some 7
  | 'b' => some 8
  | 'f' => some 12
  | 'n' => some 10
  | 'r' => some 13
  | 't' => some 9
  | 'v' => some 11
  | '\\' => some 92
  | '"' => some 34
  | '\'' => some 39
  | _ => none

def shortString (quote : Char) :
    Nat → Nat → List UInt8 → List Char → Option (Bytes × Nat × List Char)
  | 0, _, _, _ => none
  | _ + 1, _, _, [] => none
  | fuel + 1, line, done, '\\' :: rest =>
    match rest with
    | [] => none
    | 'x' :: a :: b :: rest =>
      if isHexDigit a && isHexDigit b then
        shortString quote fuel line (.ofNat (16 * digitValue a + digitValue b) :: done) rest
      else none
    | 'u' :: '{' :: rest =>
      let digits := rest.takeWhile isHexDigit
      match rest.dropWhile isHexDigit with
      | '}' :: rest =>
        if digits.isEmpty || 0x80000000 ≤ hexOf digits then none
        else shortString quote fuel line ((utf8Escape (hexOf digits)).reverse ++ done) rest
      | _ => none
    | 'z' :: rest =>
      let blanks := rest.takeWhile isSpace
      shortString quote fuel (line + lineEnds blanks.length blanks) done (rest.dropWhile isSpace)
    | c :: rest =>
      match simpleEscape? c with
      | some b => shortString quote fuel line (b :: done) rest
      | none =>
        if isLineEnd c then
          shortString quote fuel (line + 1) (10 :: done) (afterLineEnd (c :: rest))
        else
          let digits := ((c :: rest).take 3).takeWhile Char.isDigit
          if digits.isEmpty || 255 < decimalOf digits then none
          else
            shortString quote fuel line (.ofNat (decimalOf digits) :: done)
              ((c :: rest).drop digits.length)
  | fuel + 1, line, done, c :: rest =>
    if c == quote then some (⟨done.reverse.toArray⟩, line, rest)
    else if isLineEnd c then none
    else shortString quote fuel line ((bytesOf [c]).reverse ++ done) rest
where
  lineEnds : Nat → List Char → Nat
    | 0, _ => 0
    | _, [] => 0
    | fuel + 1, c :: cs =>
      if isLineEnd c then lineEnds fuel (afterLineEnd (c :: cs)) + 1 else lineEnds fuel cs

def longBracket? (bracket : Char) : List Char → Option (Nat × List Char)
  | c :: rest =>
    if c == bracket then
      let level := (rest.takeWhile (· == '=')).length
      match rest.drop level with
      | d :: after => if d == bracket then some (level, after) else none
      | [] => none
    else none
  | [] => none

def longText (level : Nat) :
    Nat → Nat → List UInt8 → List Char → Option (Bytes × Nat × List Char)
  | 0, _, _, _ => none
  | _ + 1, _, _, [] => none
  | fuel + 1, line, done, c :: rest =>
    match longBracket? ']' (c :: rest) with
    | some (n, after) =>
      if n = level then some (⟨done.reverse.toArray⟩, line, after)
      else longText level fuel line (93 :: done) rest
    | none =>
      if isLineEnd c then longText level fuel (line + 1) (10 :: done) (afterLineEnd (c :: rest))
      else longText level fuel line ((bytesOf [c]).reverse ++ done) rest

def longString (level line : Nat) (cs : List Char) : Option (Bytes × Nat × List Char) :=
  -- A line end right after the opening bracket does not belong to the text.
  match cs with
  | c :: _ =>
    if isLineEnd c then longText level (cs.length + 1) (line + 1) [] (afterLineEnd cs)
    else longText level (cs.length + 1) line [] cs
  | [] => none

def numeralChars (mark : Char) : Nat → List Char → List Char
  | 0, _ => []
  | _ + 1, [] => []
  | fuel + 1, c :: rest =>
    if c.toLower == mark then
      match rest with
      | s :: after =>
        if s == '-' || s == '+' then c :: s :: numeralChars mark fuel after
        else c :: numeralChars mark fuel rest
      | [] => [c]
    else if isHexDigit c || c == '.' then c :: numeralChars mark fuel rest
    else if isNameStart c then [c]
    else []

def numeral (cs : List Char) : List Char :=
  match cs with
  | '0' :: x :: rest =>
    if x == 'x' || x == 'X' then '0' :: x :: numeralChars 'p' (rest.length + 1) rest
    else numeralChars 'e' (cs.length + 1) cs
  | cs => numeralChars 'e' (cs.length + 1) cs

def startsNumber : List Char → Bool
  | '.' :: c :: _ => c.isDigit
  | c :: _ => c.isDigit
  | [] => false

def ofWord (word : String) : Token := if keywords.contains word then .keyword word else .name word

def symbolOf (cs : List Char) : String :=
  match longSymbols.find? fun s => s.toList.isPrefixOf cs with
  | some s => s
  | none => String.ofList (cs.take 1)

def first? (line : Nat) (cs : List Char) : Option (Lexeme × List Char) :=
  match cs with
  | [] => none
  | c :: rest =>
    if isNameStart c then
      some (⟨ofWord (String.ofList (cs.takeWhile isNameChar)), line⟩, cs.dropWhile isNameChar)
    else if startsNumber cs then
      let digits := numeral cs
      (Num.ofChars? digits).map fun n => (⟨.number n, line⟩, cs.drop digits.length)
    else if c == '"' || c == '\'' then
      (shortString c (cs.length + 1) line [] rest).map fun (s, line, rest) =>
        (⟨.string s, line⟩, rest)
    else
      match longBracket? '[' cs with
      | some (level, text) =>
        (longString level line text).map fun (s, line, rest) => (⟨.string s, line⟩, rest)
      | none =>
        if c == '[' && rest.head? == some '=' then none
        else
          let symbol := symbolOf cs
          some (⟨.symbol symbol, line⟩, cs.drop symbol.length)

def afterComment (line : Nat) (cs : List Char) : Option (Nat × List Char) :=
  match longBracket? '[' cs with
  | some (level, text) => (longString level line text).map fun (_, line, rest) => (line, rest)
  | none => some (line, cs.dropWhile fun c => !isLineEnd c)

def scanFrom : Nat → Nat → List Char → Option (List Lexeme)
  | 0, _, _ => none
  | _ + 1, _, [] => some []
  | fuel + 1, line, c :: rest =>
    if isLineEnd c then scanFrom fuel (line + 1) (afterLineEnd (c :: rest))
    else if isSpace c then scanFrom fuel line rest
    else
      match c :: rest with
      | '-' :: '-' :: text =>
        match afterComment line text with
        | some (line, rest) => scanFrom fuel line rest
        | none => none
      | cs =>
        match first? line cs with
        | some (lexeme, rest) => (scanFrom fuel lexeme.line rest).map (lexeme :: ·)
        | none => none

def scan (text : String) : Option (List Lexeme) :=
  scanFrom (text.length + 1) 1 text.toList

end Token

end CallGuard.Lua
