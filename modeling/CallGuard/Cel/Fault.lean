import CallGuard.Cel.Value

set_option autoImplicit false

namespace CallGuard.Cel

inductive Fault
  | noSuchKey (name : String)
  | undeclared (function : String)
  | unbound (name : String)
  | notComparable (a b : Value)
  | unsupportedBinary (op : String) (a b : Value)
  | overflow (op : String) (a b : Value)
  | unsupportedUnary (op : String) (a : Value)
  | divisionByZero (a : Value)
  | remainderByZero (a : Value)
  | unsupportedKey (v : Value)
  | listIndex (v : Value)
  | mapIndex (v : Value)
  | index (v i : Value)
  | missingTarget
  | argumentCount (expected got : Nat)
  | unexpectedType (got : Value) (wanted : String)
  | function (name : String) (reason : Message)

inductive Stop
  | fault (f : Fault)
  | crash

abbrev Result (α : Type) := Except Stop α

def fail {α : Type} (f : Fault) : Result α := .error (.fault f)

namespace Fault

def pair (start : String) (a : Value) (between : String) (b : Value) : Message :=
  Value.concat [start, a.debug, between, b.debug]

def message : Fault → Message
  | noSuchKey name => "No such key: " ++ name
  | undeclared name => "Undeclared reference to '" ++ name ++ "'"
  | unbound name => "Undeclared reference to '" ++ name ++ "'"
  | notComparable a b => pair "" a " can not be compared to " b
  | unsupportedBinary op a b => pair ("Unsupported binary operator '" ++ op ++ "': ") a ", " b
  | overflow op a b => pair ("Overflow from binary operator '" ++ op ++ "': ") a ", " b
  | unsupportedUnary op a => a.debug.after ("Unsupported unary operator '" ++ op ++ "': ")
  | divisionByZero a => a.debug.after "Division by zero of "
  | remainderByZero a => a.debug.after "Remainder by zero of "
  | unsupportedKey v => Value.concat ["Unable to use value '", v.debug, "' as a key"]
  | listIndex v => v.debug.after "Cannot use value as list index: "
  | mapIndex v => v.debug.after "Cannot use value as map index: "
  | index v i => pair "Cannot use value " v " to index " i
  | missingTarget => "Missing argument or target"
  | argumentCount expected got =>
    "Invalid argument count: expected " ++ toString expected ++ ", got " ++ toString got
  | unexpectedType got wanted =>
    Value.concat ["Unexpected type: got '", got.debug, ("', want '" ++ wanted ++ "'" : String)]
  | function name reason => reason.after ("Error executing function '" ++ name ++ "': ")

end Fault

end CallGuard.Cel
