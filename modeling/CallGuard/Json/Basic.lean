import CallGuard.Json.Number
import CallGuard.Keyed

set_option autoImplicit false

namespace CallGuard

inductive Json
  | null
  | bool (value : Bool)
  | num (value : Json.Number)
  | str (value : String)
  | arr (items : List Json)
  | obj (fields : List (String × Json))

instance : Inhabited Json := ⟨.null⟩

namespace Json

def ofFields (fields : List (String × Json)) : Json :=
  -- Of two fields with one name the later counts.
  .obj (Keyed.ofList fields).entries

def ofKeyed (fields : Keyed Json) : Json := .obj fields.entries

def ofNat (n : Nat) : Json := .num (.integer n)

def ofOption {α : Type} (f : α → Json) : Option α → Json
  | none => .null
  | some a => f a

def ofTexts (texts : List String) : Json := .arr (texts.map .str)

def field? (name : String) : Json → Option Json
  | .obj fields => Keyed.lookupList name fields
  | _ => none

def text? : Json → Option String
  | .str s => some s
  | _ => none

def items? : Json → Option (List Json)
  | .arr items => some items
  | _ => none

end Json

end CallGuard
