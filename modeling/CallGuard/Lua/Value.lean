import CallGuard.Lua.Native

set_option autoImplicit false

namespace CallGuard.Lua

inductive Value
  | nil
  | bool (value : Bool)
  | int (value : Int64)
  | float (value : Float)
  | string (value : Bytes)
  | table (id : TableId)
  | function (id : FunctionId)
  | native (n : Native)

instance : Inhabited Value := ⟨.nil⟩

namespace Value

def text (s : String) : Value := string (.ofText s)

def truth : Value → Bool
  -- Only nil and false count as false.
  | nil => false
  | bool b => b
  | _ => true

def isNil : Value → Bool
  | nil => true
  | _ => false

def typeName : Value → String
  | nil => "nil"
  | bool _ => "boolean"
  | int _ => "number"
  | float _ => "number"
  | string _ => "string"
  | table _ => "table"
  | function _ => "function"
  | native _ => "function"

def kindName : Value → String
  -- The name of a value's kind for an operator, who wants to tell integers from other numbers.
  | int _ => "integer"
  | v => v.typeName

end Value

-- Every value but nil and NaN; a float with an integral value is that integer.
inductive Key
  | bool (value : Bool)
  | int (value : Int64)
  | float (bits : UInt64)
  | string (value : Bytes)
  | table (id : TableId)
  | function (id : FunctionId)
  | native (n : Native)
deriving DecidableEq

def Key.toValue : Key → Value
  | bool b => .bool b
  | int i => .int i
  | float bits => .float (Float.ofBits bits)
  | string s => .string s
  | table id => .table id
  | function id => .function id
  | native n => .native n

end CallGuard.Lua
