import CallGuard.Error
import CallGuard.Json.Reader
import CallGuard.Text.Blank

set_option autoImplicit false

namespace CallGuard

-- The text that allows every call without being evaluated.
def allowAllText : String := "*"

structure RuleSet where
  rules : List String
deriving DecidableEq, Repr

namespace RuleSet

def allowAll : RuleSet := ⟨[allowAllText]⟩

def isAllowAll (s : RuleSet) : Bool :=
  match s.rules with
  | [rule] => Text.trim rule == allowAllText
  | _ => false

def toJson (s : RuleSet) : Json :=
  .obj [("rules", .arr (s.rules.map fun rule => .obj [("expression", .str rule)]))]

def ruleOfRaw? (r : Json.Raw) : Option String :=
  -- A rule is a record with an expression. Other fields are passed over.
  match r.record? false ["expression"] with
  | some [some expression] => expression.text?
  | _ => none

def ofRaw? (r : Json.Raw) : Option RuleSet :=
  -- A rule set without rules may leave the field out.
  match r.record? false ["rules"] with
  | some [some rules] => (rules.list? ruleOfRaw?).map .mk
  | some [none] => some ⟨[]⟩
  | _ => none

end RuleSet

-- `/service/` of `/service/method`; a name of another shape belongs to no service.
def servicePrefix? (method : String) : Option String :=
  match method.toList with
  | '/' :: rest =>
    match rest.takeWhile (· != '/'), rest.dropWhile (· != '/') with
    | [], _ => none
    | _ :: _, [] => none
    | service, _ :: _ => some (String.ofList ('/' :: service ++ ['/']))
  | _ => none

namespace Catalog

inductive Fault
  | blankMethod
  | blankExpression (method : String) (index : Nat)
  | allowAllNotAlone (method : String)
  | repeatedMethod (method : String)
  | unreadable
deriving DecidableEq, Repr

def Fault.message : Fault → Message
  | .blankMethod => "empty method identifier"
  | .blankExpression method index =>
    method ++ ": rule " ++ toString index ++ " has an empty expression"
  | .allowAllNotAlone method => method ++ ": '*' must be the only rule of its rule set"
  | .repeatedMethod method => "method '" ++ method ++ "' defined twice"
  | .unreadable => .cutAfter "invalid catalog json:"

def Fault.error (f : Fault) : Error := .catalog f.message

def ruleFault? (method : String) (count : Nat) (index : Nat) (rule : String) : Option Fault :=
  if Text.trim rule = "" then some (.blankExpression method index)
  else if Text.trim rule = allowAllText ∧ 1 < count then some (.allowAllNotAlone method)
  else none

def rulesFault? (method : String) (count : Nat) : Nat → List String → Option Fault
  | _, [] => none
  | index, rule :: rest =>
    match ruleFault? method count index rule with
    | some fault => some fault
    | none => rulesFault? method count (index + 1) rest

def entryFault? (method : String) (set : RuleSet) : Option Fault :=
  if Text.trim method = "" then some .blankMethod
  else rulesFault? method set.rules.length 0 set.rules

def firstFault? : List (String × RuleSet) → Option Fault
  | [] => none
  | (method, set) :: rest =>
    match entryFault? method set with
    | some fault => some fault
    | none => firstFault? rest

theorem entryFault?_of_firstFault? {entries : List (String × RuleSet)}
    (h : firstFault? entries = none) : ∀ e ∈ entries, entryFault? e.1 e.2 = none := by
  induction entries with
  | nil => simp
  | cons e rest ih =>
    simp only [firstFault?] at h
    split at h
    · cases h
    · rename_i hnone
      intro e he
      rcases List.mem_cons.1 he with rfl | he
      · exact hnone
      · exact ih h e he

end Catalog

structure Catalog where
  methods : Keyed RuleSet
  valid : ∀ e ∈ methods.entries, Catalog.entryFault? e.1 e.2 = none

namespace Catalog

def validate (methods : Keyed RuleSet) : Except Fault Catalog :=
  match h : firstFault? methods.entries with
  | some fault => .error fault
  | none => .ok ⟨methods, entryFault?_of_firstFault? h⟩

def repeated? : List String → List String → Option String
  -- The first method that occurs again further on in the order in which the second occurrences
  -- come.
  | _, [] => none
  | seen, m :: rest => if seen.contains m then some m else repeated? (m :: seen) rest

def ofEntries (entries : List (String × List String)) : Except Fault Catalog :=
  match repeated? [] (entries.map (·.1)) with
  | some method => .error (.repeatedMethod method)
  | none => validate (Keyed.ofList (entries.map fun (method, rules) => (method, ⟨rules⟩)))

def fieldsOfRaw? : List (Option String × Json.Raw) → Option (List (String × RuleSet))
  | [] => some []
  | (none, _) :: _ => none
  | (some method, r) :: rest =>
    match RuleSet.ofRaw? r, fieldsOfRaw? rest with
    | some set, some sets => some ((method, set) :: sets)
    | _, _ => none

def ofText (text : String) : Except Fault Catalog :=
  match Json.Raw.ofText? text with
  | some (.obj fields) =>
    match fieldsOfRaw? fields with
    | some sets => validate (Keyed.ofList sets)
    | none => .error .unreadable
  | _ => .error .unreadable

def lookup? (c : Catalog) (method : String) : Option RuleSet := c.methods.get? method

def size (c : Catalog) : Nat := c.methods.size

def isEmpty (c : Catalog) : Bool := c.methods.isEmpty

def serviceCovered (c : Catalog) (method : String) : Bool :=
  match servicePrefix? method with
  | none => false
  | some service =>
    c.methods.entries.any fun (other, set) =>
      other != method && !set.rules.isEmpty && Text.startsWith service.toList other.toList

def distinctExpressions (c : Catalog) : List String :=
  (Keyed.ofList
    ((c.methods.values.filter fun set => !set.isAllowAll).flatMap fun set =>
      set.rules.map fun rule => (rule, ()))).keys

end Catalog

end CallGuard
