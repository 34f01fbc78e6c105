set_option autoImplicit false

namespace CallGuard

-- Where the words end in `...` the rest is left out.
structure Message where
  text : String
  complete : Bool
deriving DecidableEq, Repr

namespace Message

def exact (text : String) : Message := ⟨text, true⟩

def cutAfter (text : String) : Message := ⟨text ++ "...", false⟩

def elided : Message := cutAfter ""

instance : Coe String Message := ⟨exact⟩

def after (m : Message) (start : String) : Message := ⟨start ++ m.text, m.complete⟩

end Message

inductive Error
  | identity (reason : String)
  | compile (expression : String) (reason : Message)
  | evaluation (expression : String) (reason : Message)
  | nonBoolean (expression : String) (got : Message)
  | deadline (expression : String)
  | denied (method : String)
  | catalog (reason : Message)
  | config (reason : Message)
  | pool (reason : String)
deriving DecidableEq, Repr

inductive Status
  | permissionDenied
  | unauthenticated
  | internal
  | deadlineExceeded
  | failedPrecondition
  | unavailable
deriving DecidableEq, Repr

namespace Status

def number : Status → Nat
  | deadlineExceeded => 4
  | permissionDenied => 7
  | failedPrecondition => 9
  | internal => 13
  | unavailable => 14
  | unauthenticated => 16

def http : Status → Nat
  | permissionDenied => 403
  | unauthenticated => 401
  | internal => 500
  | failedPrecondition => 500
  | deadlineExceeded => 504
  | unavailable => 503

def name : Status → String
  | permissionDenied => "PermissionDenied"
  | unauthenticated => "Unauthenticated"
  | internal => "Internal"
  | deadlineExceeded => "DeadlineExceeded"
  | failedPrecondition => "FailedPrecondition"
  | unavailable => "Unavailable"

end Status

namespace Error

def message : Error → Message
  | identity reason => .exact ("authorizer: failed to extract user: " ++ reason)
  | compile expression reason =>
    reason.after ("authorizer: failed to compile expression '" ++ expression ++ "': ")
  | evaluation expression reason =>
    reason.after ("authorizer: failed to run expression '" ++ expression ++ "': ")
  | nonBoolean expression got =>
    got.after ("authorizer: expression '" ++ expression ++ "' did not return a boolean, got ")
  | deadline expression =>
    .exact ("authorizer: deadline exceeded while evaluating '" ++ expression ++ "'")
  | denied method => .exact ("authorizer: permission denied for " ++ method)
  | catalog reason => reason.after "authorizer: invalid rule catalog: "
  | config reason => reason.after "authorizer: invalid configuration: "
  | pool reason => .exact ("authorizer: evaluator pool exhausted: " ++ reason)

def code : Error → String
  | identity _ => "identity_error"
  | compile _ _ => "compile_error"
  | evaluation _ _ => "evaluation_error"
  | nonBoolean _ _ => "non_boolean_result"
  | deadline _ => "deadline_exceeded"
  | denied _ => "permission_denied"
  | catalog _ => "catalog_error"
  | config _ => "config_error"
  | pool _ => "pool_exhausted"

def status : Error → Status
  | denied _ => .permissionDenied
  | identity _ => .unauthenticated
  | compile _ _ => .internal
  | evaluation _ _ => .internal
  | nonBoolean _ _ => .internal
  | deadline _ => .deadlineExceeded
  | catalog _ => .failedPrecondition
  | config _ => .failedPrecondition
  | pool _ => .unavailable

def isDenial : Error → Bool
  -- A denial answers the caller; every other error is for an operator.
  | denied _ => true
  | _ => false

def ofCauses (causes : List String) : Error := identity (": ".intercalate causes)

end Error

-- An error is reported; a breakdown takes the whole task with it.
inductive Halt
  | error (e : Error)
  | crash
deriving DecidableEq, Repr

abbrev Outcome (α : Type) := Except Halt α

def Outcome.fail {α : Type} (e : Error) : Outcome α := .error (.error e)

end CallGuard
