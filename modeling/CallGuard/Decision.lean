import CallGuard.Json.Basic

set_option autoImplicit false

namespace CallGuard

inductive Reason
  | whitelisted
  | notSelected
  | allowAll
  | serviceCovered
  | unknownAllowed
  -- The first rule that yielded true, counted from zero.
  | rule (index : Nat)
  | noRuleMatched
  | unknownMethod
deriving DecidableEq, Repr

namespace Reason

def text : Reason → String
  | whitelisted => "whitelisted"
  | notSelected => "not selected"
  | allowAll => "allow all"
  | serviceCovered => "service covered"
  | unknownAllowed => "unknown method allowed"
  | rule index => "rule #" ++ toString index
  | noRuleMatched => "no rule matched"
  | unknownMethod => "unknown method"

def toJson : Reason → Json
  | whitelisted => .str "whitelisted"
  | notSelected => .str "not_selected"
  | allowAll => .str "allow_all"
  | serviceCovered => .str "service_covered"
  | unknownAllowed => .str "unknown_allowed"
  | rule index => .obj [("rule", .ofNat index)]
  | noRuleMatched => .str "no_rule_matched"
  | unknownMethod => .str "unknown_method"

end Reason

structure Decision where
  allow : Bool
  reason : Reason
deriving DecidableEq, Repr

namespace Decision

def allowed (reason : Reason) : Decision := ⟨true, reason⟩

def refused (reason : Reason) : Decision := ⟨false, reason⟩

def toJson (d : Decision) : Json :=
  .obj [("allow", .bool d.allow), ("reason", d.reason.toJson)]

end Decision

end CallGuard
