import CallGuard.Json.Basic

set_option autoImplicit false

namespace CallGuard.Json

def hexDigit (n : Nat) : Char := if n < 10 then Char.ofNat (48 + n) else Char.ofNat (87 + n)

def escapedChar (c : Char) : List Char :=
  -- Quotes, backslashes and controls are escaped, and nothing else.
  match c with
  | '"' => ['\\', '"']
  | '\\' => ['\\', '\\']
  | '\x08' => ['\\', 'b']
  | '\x0c' => ['\\', 'f']
  | '\n' => ['\\', 'n']
  | '\r' => ['\\', 'r']
  | '\t' => ['\\', 't']
  | c =>
    if c.toNat < 0x20 then ['\\', 'u', '0', '0', hexDigit (c.toNat / 16), hexDigit (c.toNat % 16)]
    else [c]

def stringText (s : String) : String :=
  "\"" ++ String.ofList (s.toList.flatMap escapedChar) ++ "\""

mutual

def text : Json → String
  | .null => "null"
  | .bool b => if b then "true" else "false"
  | .num n => n.text
  | .str s => stringText s
  | .arr items => "[" ++ ",".intercalate (itemTexts items) ++ "]"
  | .obj fields => "\x7b" ++ ",".intercalate (fieldTexts fields) ++ "\x7d"

def itemTexts : List Json → List String
  | [] => []
  | j :: js => text j :: itemTexts js

def fieldTexts : List (String × Json) → List String
  | [] => []
  | (name, j) :: rest => (stringText name ++ ":" ++ text j) :: fieldTexts rest

end

def indentText (depth : Nat) : String := String.ofList (List.replicate (2 * depth) ' ')

def block (depth : Nat) (opening closing : String) (items : List String) : String :=
  if items.isEmpty then opening ++ closing
  else
    opening ++ "\n" ++
      ",\n".intercalate (items.map (indentText (depth + 1) ++ ·)) ++
      "\n" ++ indentText depth ++ closing

mutual

def indented : Nat → Json → String
  | depth, .arr items => block depth "[" "]" (indentedItems (depth + 1) items)
  | depth, .obj fields => block depth "\x7b" "\x7d" (indentedFields (depth + 1) fields)
  | _, j => text j

def indentedItems : Nat → List Json → List String
  | _, [] => []
  | depth, j :: js => indented depth j :: indentedItems depth js

def indentedFields : Nat → List (String × Json) → List String
  | _, [] => []
  | depth, (name, j) :: rest =>
    (stringText name ++ ": " ++ indented depth j) :: indentedFields depth rest

end

end CallGuard.Json
