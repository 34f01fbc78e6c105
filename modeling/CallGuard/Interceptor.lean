import CallGuard.Authorizer
import CallGuard.Identity
import CallGuard.Selector

set_option autoImplicit false

namespace CallGuard

structure Interceptor (α : Type) where
  whitelist : Whitelist
  selectors : List Selector
  extractor : Extractor
  authorizer : Authorizer α
  -- How often a caller had to be identified.
  extractions : Nat

namespace Interceptor

variable {α : Type} [Decider α]

def ofAuthorizer (authorizer : Authorizer α) : Interceptor α :=
  ⟨.ofList [], [], .anonymous, authorizer, 0⟩

def debugText (i : Interceptor α) : String :=
  "Interceptor \x7b whitelist: " ++ toString i.whitelist.size ++ ", selectors: [" ++
    ", ".intercalate (i.selectors.map Selector.debugText) ++ "], authorizer: " ++
    Text.quoted i.authorizer.name ++ " \x7d"

def authorize (i : Interceptor α) (c : Context) : Outcome Decision × Interceptor α :=
  match i.authorizer.authorize c with
  | (result, authorizer) => (result, { i with authorizer })

def check (i : Interceptor α) (call : Call) (request : Option Json) (isStream : Bool) :
    Outcome Decision × Interceptor α :=
  if i.whitelist.contains call.method then (.ok (.allowed .whitelisted), i)
  else if !Selector.selects i.selectors call.method call.metadata then
    (.ok (.allowed .notSelected), i)
  else
    let i := { i with extractions := i.extractions + 1 }
    match i.extractor call with
    | .error causes => (.fail (.ofCauses causes), i)
    | .ok user =>
      i.authorize (.build user request call.metadata isStream call.method call.deadline)

def enforced (method : String) : Outcome Decision → Outcome Decision
  -- A refusal becomes an error.
  | .ok d => if d.allow then .ok d else .fail (.denied method)
  | .error h => .error h

def enforce (i : Interceptor α) (call : Call) (request : Option Json) (isStream : Bool) :
    Outcome Decision × Interceptor α :=
  match i.check call request isStream with
  | (result, i) => (enforced call.method result, i)

def guarded {m : Type → Type} [Monad m] {β : Type} (result : Outcome Decision)
    (handler : m (Outcome β)) : m (Outcome β) :=
  match result with
  | .ok _ => handler
  | .error h => pure (.error h)

def unaryOf {m : Type → Type} [Monad m] {ρ β : Type} (serialize : ρ → Except String Json)
    (i : Interceptor α) (call : Call) (request : ρ) (handler : ρ → m (Outcome β)) :
    m (Outcome β) × Interceptor α :=
  match serialize request with
  | .error reason =>
    (pure (.fail (.evaluation "request" ("request is not serializable: " ++ reason : String))), i)
  | .ok value =>
    match i.enforce call (some value) false with
    | (result, i) => (guarded result (handler request), i)

def unary {m : Type → Type} [Monad m] {β : Type} (i : Interceptor α) (call : Call) (request : Json)
    (handler : Json → m (Outcome β)) : m (Outcome β) × Interceptor α :=
  i.unaryOf .ok call request handler

def stream {m : Type → Type} [Monad m] {β : Type} (i : Interceptor α) (call : Call)
    (handler : m (Outcome β)) : m (Outcome β) × Interceptor α :=
  -- A stream is authorized before its first message.
  match i.enforce call none true with
  | (result, i) => (guarded result handler, i)

end Interceptor

end CallGuard
