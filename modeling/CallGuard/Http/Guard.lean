import CallGuard.Http.CallTimeout
import CallGuard.Http.Headers
import CallGuard.Interceptor
import CallGuard.Json.Reader

set_option autoImplicit false

namespace CallGuard.Http

structure Request where
  target : String
  headers : Headers
  body : ByteArray

def pathOf (target : String) : String :=
  -- The part of a target that names the resource: neither a query nor a fragment belongs to it.
  String.ofList (target.toList.takeWhile fun c => c != '?' && c != '#')

structure Rejection where
  status : Nat
  label : String
  code : Option String
  message : Message
  -- Remote procedure calls also get a status of their own.
  grpcStatus : Option Nat

namespace Rejection

def bodyTooLong : Rejection := ⟨413, "error", none, "length limit exceeded", none⟩

def bodyUnreadable : Rejection := ⟨400, "error", none, .cutAfter "invalid json body:", none⟩

def ofError (e : Error) (isGrpc : Bool) : Rejection where
  status := e.status.http
  label := if e.isDenial then "forbidden" else "error"
  code := some e.code
  message := e.message
  grpcStatus := if isGrpc then some e.status.number else none

def body (r : Rejection) : Json :=
  .ofFields ([("status", .str r.label), ("error", .str r.message.text)] ++
    (r.code.map fun code => ("code", .str code)).toList)

def grpcValue? (r : Rejection) : Option (List UInt8) :=
  -- The message goes with the status when it can be the value of a header.
  if r.grpcStatus.isSome then value? r.message.text else none

-- What a caller makes of the header that only takes plain text.
def grpcMessage? (r : Rejection) : Option String := r.grpcValue?.bind plainText?

end Rejection

inductive Response (β : Type)
  | handled (answer : β)
  | rejected (r : Rejection)

structure Guard (α : Type) where
  interceptor : Interceptor α
  maxBodyBytes : Nat

namespace Guard

variable {α : Type} [Decider α]

def payload (maxBodyBytes : Nat) (r : Request) : Except Rejection (Option Json) :=
  -- The document that rules see, if the body has to hold one.
  if r.headers.isStream || !r.headers.isJson then .ok none
  else if maxBodyBytes < r.body.size then .error .bodyTooLong
  else if r.body.size = 0 then .ok none
  else
    match (String.fromUTF8? r.body).bind Json.ofText? with
    | some document => .ok (some document)
    | none => .error .bodyUnreadable

def timeout (r : Request) : Outcome (Option Timeout) :=
  match r.headers.text? "grpc-timeout" with
  | none => .ok none
  | some text => Timeout.ofText text

def callOf (r : Request) (deadline : Option Timeout) : Call :=
  ⟨pathOf r.target, r.headers.metadata, deadline⟩

def respond {m : Type → Type} [Monad m] {β : Type} (r : Request) (handler : Request → m β) :
    Outcome Decision → m (Outcome (Response β))
  | .ok _ => do return .ok (.handled (← handler r))
  | .error (.error e) => pure (.ok (.rejected (.ofError e r.headers.isGrpc)))
  | .error .crash => pure (.error .crash)

def serve {m : Type → Type} [Monad m] {β : Type} (g : Guard α) (r : Request)
    (handler : Request → m β) : m (Outcome (Response β)) × Guard α :=
  match timeout r with
  | .error h => (pure (.error h), g)
  | .ok deadline =>
    match payload g.maxBodyBytes r with
    | .error rejection => (pure (.ok (.rejected rejection)), g)
    | .ok document =>
      match g.interceptor.enforce (callOf r deadline) document r.headers.isStream with
      | (result, interceptor) => (respond r handler result, { g with interceptor })

end Guard

end CallGuard.Http
