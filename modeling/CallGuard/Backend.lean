import CallGuard.Error
import CallGuard.Text.Blank

set_option autoImplicit false

namespace CallGuard

inductive Backend
  | cel
  | lua
deriving DecidableEq, Repr

namespace Backend

def name : Backend → String
  | cel => "cel"
  | lua => "lua"

def debugName : Backend → String
  | cel => "Cel"
  | lua => "Lua"

def names : List (String × Backend) := [("cel", cel), ("lua", lua)]

def ofText (s : String) : Except Error Backend :=
  -- Blanks around a word and its case do not matter.
  let word := Text.lowerAscii (Text.trim s)
  match names.lookup word with
  | some b => .ok b
  | none => .error (.config ("unknown backend '" ++ word ++ "'" : String))

end Backend

inductive Fallback
  | coveredService
  | deny
  | allow
deriving DecidableEq, Repr

namespace Fallback

def name : Fallback → String
  | coveredService => "covered_service"
  | deny => "deny"
  | allow => "allow"

def debugName : Fallback → String
  | coveredService => "CoveredService"
  | deny => "Deny"
  | allow => "Allow"

def names : List (String × Fallback) :=
  [("covered_service", coveredService), ("deny", deny), ("allow", allow)]

def ofText (s : String) : Except Error Fallback :=
  -- Like a backend's word, and a hyphen stands for an underscore.
  let lowered := Text.lowerAscii (Text.trim s)
  let word := String.ofList (lowered.toList.map fun c => if c = '-' then '_' else c)
  match names.lookup word with
  | some f => .ok f
  | none => .error (.config ("unknown fallback policy '" ++ word ++ "'" : String))

end Fallback

end CallGuard
