import CallGuard.Json.Basic
import CallGuard.Metadata

set_option autoImplicit false

namespace CallGuard

inductive Variable
  | request
  | metadata
  | user
  | isStream
  | method
deriving DecidableEq, Repr

namespace Variable

def all : List Variable := [request, metadata, user, isStream, method]

def name : Variable → String
  | request => "request"
  | metadata => "metadata"
  | user => "user"
  | isStream => "is_stream"
  | method => "method"

def isDeclared (name : String) : Bool := all.any fun v => v.name == name

end Variable

structure Timeout where
  -- The time that is left for a call, in nanoseconds.
  nanoseconds : Nat
deriving DecidableEq, Repr

namespace Timeout

-- What is left is over once it is less than one tick of the clock, a microsecond.
def isOver (t : Timeout) : Bool := t.nanoseconds < 1000

def seconds (t : Timeout) : Nat := t.nanoseconds / 1_000_000_000

def subseconds (t : Timeout) : Nat := t.nanoseconds % 1_000_000_000

end Timeout

structure Context where
  user : Json
  request : Option Json
  metadata : Keyed String
  isStream : Bool
  method : String
  -- Not visible to rules.
  deadline : Option Timeout

namespace Context

-- A stream is authorized before its first message, so it never carries a request.
def build (user : Json) (request : Option Json) (metadata : Metadata) (isStream : Bool)
    (method : String) (deadline : Option Timeout) : Context :=
  { user
    request := if isStream then none else request
    metadata := metadata.normalized
    isStream
    method
    deadline }

-- Rules see a missing request as null.
def requestValue (c : Context) : Json := c.request.getD .null

def deadlinePassed (c : Context) : Bool :=
  match c.deadline with
  | none => false
  | some t => t.isOver

end Context

end CallGuard
