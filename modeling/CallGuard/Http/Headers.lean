import CallGuard.Metadata
import CallGuard.Text.Blank

set_option autoImplicit false

namespace CallGuard.Http

structure Headers where
  fields : List (String × List UInt8)

-- A byte that plain text may hold: printable ASCII, a space or a tab.
def isPlain (b : UInt8) : Bool := (32 ≤ b && b < 127) || b == 9

def plainText? (value : List UInt8) : Option String :=
  if value.all isPlain then some (String.ofList (value.map fun b => Char.ofNat b.toNat)) else none

-- A byte that a value may hold at all.
def isAllowed (b : UInt8) : Bool := (32 ≤ b && b != 127) || b == 9

def value? (s : String) : Option (List UInt8) :=
  let bytes := s.toUTF8.toList
  if bytes.all isAllowed then some bytes else none

namespace Headers

def ofList (fields : List (String × List UInt8)) : Headers :=
  ⟨fields.map fun (name, value) => (Text.lowerAscii name, value)⟩

def text? (h : Headers) (name : String) : Option String :=
  (h.fields.lookup name).bind plainText?

def metadata (h : Headers) : Metadata :=
  -- Every value that is plain text becomes metadata.
  .ofPairs (h.fields.filterMap fun (name, value) => (plainText? value).map (name, ·))

def contentType (h : Headers) : String := (h.text? "content-type").getD ""

def isGrpc (h : Headers) : Bool :=
  Text.startsWith "application/grpc".toList h.contentType.toList

def isWebsocket (h : Headers) : Bool :=
  match h.text? "upgrade" with
  | some value => Text.lowerAscii value == "websocket"
  | none => false

def isStream (h : Headers) : Bool := h.isGrpc || h.isWebsocket

def isJson (h : Headers) : Bool :=
  Text.startsWith "application/json".toList h.contentType.toList ||
    Text.startsWith "+json".toList.reverse h.contentType.toList.reverse

end Headers

end CallGuard.Http
