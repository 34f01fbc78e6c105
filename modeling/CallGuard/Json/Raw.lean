import CallGuard.Json.Basic

set_option autoImplicit false

namespace CallGuard.Json

-- A string whose escapes name no character is `none`; fields keep order and repetitions.
inductive Raw
  | null
  | bool (value : Bool)
  | num (literal : Literal)
  | str (text : Option String)
  | arr (items : List Raw)
  | obj (fields : List (Option String × Raw))

namespace Raw

def depthLimit : Nat := 127

mutual

def toJson? : Nat → Raw → Option Json
  | _, .null => some .null
  | _, .bool b => some (.bool b)
  | _, .num l => l.number?.map .num
  | _, .str t => t.map .str
  | 0, .arr _ => none
  | depth + 1, .arr items => (itemsToJson? depth items).map .arr
  | 0, .obj _ => none
  | depth + 1, .obj fields => (fieldsToJson? depth fields).map Json.ofFields

def itemsToJson? : Nat → List Raw → Option (List Json)
  | _, [] => some []
  | depth, r :: rs =>
    match toJson? depth r, itemsToJson? depth rs with
    | some j, some js => some (j :: js)
    | _, _ => none

def fieldsToJson? : Nat → List (Option String × Raw) → Option (List (String × Json))
  | _, [] => some []
  | _, (none, _) :: _ => none
  | depth, (some name, r) :: rest =>
    match toJson? depth r, fieldsToJson? depth rest with
    | some j, some js => some ((name, j) :: js)
    | _, _ => none

end

def text? : Raw → Option String
  | .str t => t
  | _ => none

def bool? : Raw → Option Bool
  | .bool b => some b
  | _ => none

def natural? (bound : Nat) : Raw → Option Nat
  | .num l =>
    match l.number? with
    | some (.integer i) => if 0 ≤ i ∧ i < bound then some i.toNat else none
    | _ => none
  | _ => none

def optional? {α : Type} (read : Raw → Option α) : Raw → Option (Option α)
  | .null => some none
  | r => (read r).map some

def list? {α : Type} (read : Raw → Option α) : Raw → Option (List α)
  | .arr items => items.mapM read
  | _ => none

def constant? {α : Type} (names : List (String × α)) : Raw → Option α
  -- One of the named constants, as a string or as an object that maps its name to null.
  | .str (some name) => names.lookup name
  | .obj [(some name, .null)] => names.lookup name
  | _ => none

def fieldOnce? (name : String) (fields : List (Option String × Raw)) : Option (Option Raw) :=
  match fields.filter fun f => f.1 == some name with
  | [] => some none
  | [(_, r)] => some (some r)
  | _ => none

-- A record may also be written as an array of its first values.
def record? (strict : Bool) (names : List String) : Raw → Option (List (Option Raw))
  | .obj fields =>
    if fields.all fun f => match f.1 with
        | none => false
        | some name => !strict || names.contains name
    then names.mapM fun name => fieldOnce? name fields
    else none
  | .arr items =>
    if items.length ≤ names.length then
      some (items.map some ++ List.replicate (names.length - items.length) none)
    else none
  | _ => none

end Raw

end CallGuard.Json
