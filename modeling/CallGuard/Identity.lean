import CallGuard.Context
import CallGuard.Text.Blank

set_option autoImplicit false

namespace CallGuard

structure Call where
  method : String
  metadata : Metadata
  deadline : Option Timeout

-- Names the user of a call, or the causes of a failure, outermost first.
def Extractor := Call → Except (List String) Json

namespace Extractor

-- Every caller is unknown.
def anonymous : Extractor := fun _ => .ok .null

end Extractor

structure Principal where
  userId : String
  roles : List String
  attributes : Keyed String

def Principal.toJson (p : Principal) : Json :=
  .obj [
    ("attrs", .ofKeyed (p.attributes.map .str)),
    ("roles", .ofTexts p.roles),
    ("user_id", .str p.userId)]

structure HeaderIdentity where
  userHeader : String
  rolesHeader : String
  -- What follows this beginning of a header's name is the name of an attribute.
  attributeStart : String

namespace HeaderIdentity

def standard : HeaderIdentity := ⟨"x-user-id", "x-user-roles", "x-user-attr-"⟩

def rolesOf (value : String) : List String :=
  -- The roles of one value: its items between commas, without blanks around them, and without the
  -- empty ones.
  ((Text.splitOnChar ',' value).map Text.trim).filter fun role => role != ""

def attribute? (h : HeaderIdentity) (entry : String × List String) : Option (String × String) :=
  (Text.dropPrefix? h.attributeStart.toList entry.1.toList).map fun name =>
    (String.ofList name, ",".intercalate entry.2)

def principal (h : HeaderIdentity) (call : Call) : Except (List String) Principal :=
  match call.metadata.get? h.userHeader with
  | none => .error ["missing " ++ h.userHeader ++ " header"]
  | some userId =>
    if Text.trim userId = "" then .error ["missing " ++ h.userHeader ++ " header"]
    else .ok
      { userId
        roles := (call.metadata.getAll h.rolesHeader).flatMap rolesOf
        attributes := .ofList (call.metadata.values.entries.filterMap h.attribute?) }

def extractor (h : HeaderIdentity) : Extractor := fun call =>
  (h.principal call).map Principal.toJson

end HeaderIdentity

end CallGuard
