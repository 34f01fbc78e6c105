import CallGuard.Lua.Number

set_option autoImplicit false

namespace CallGuard.Lua

inductive UnaryOp
  | negate
  | not
  | length
  | complement
deriving DecidableEq, Repr

inductive BinaryOp
  | arith (op : Arith)
  | bitwise (op : Bitwise)
  | concat
  | equal
  | notEqual
  | less
  | lessEqual
  | greater
  | greaterEqual
  | and
  | or
deriving DecidableEq, Repr

inductive Attribute
  | regular
  | constant
  | closed
deriving DecidableEq, Repr

mutual

inductive Expr
  | nil
  | bool (value : Bool)
  | number (value : Num)
  | string (value : Bytes)
  | varargs
  | function (f : Function)
  | name (name : String) (line : Nat)
  | index (base key : Expr) (line : Nat)
  | call (function : Expr) (args : List Expr) (line : Nat)
  -- The name is looked up in the object, which is then the first argument.
  | method (object : Expr) (name : String) (args : List Expr) (nameLine line : Nat)
  | unary (op : UnaryOp) (e : Expr) (line : Nat)
  | binary (op : BinaryOp) (a b : Expr) (line : Nat)
  -- Keeps one value of several.
  | paren (e : Expr)
  | table (fields : List Field)

inductive Field
  | item (value : Expr)
  | entry (key value : Expr)

inductive Function
  | mk (params : List String) (isVararg : Bool) (body : List Stmt)

inductive Stmt
  | assign (targets values : List Expr) (line : Nat)
  | call (e : Expr)
  | block (body : List Stmt)
  | whileLoop (test : Expr) (body : List Stmt)
  -- The test sees the variables of the body.
  | repeatLoop (body : List Stmt) (test : Expr)
  | cond (test : Expr) (yes no : List Stmt)
  | forRange (name : String) (start limit : Expr) (step : Option Expr) (body : List Stmt)
  | forEach (names : List String) (values : List Expr) (body : List Stmt) (line : Nat)
  | locals (names : List (String × Attribute)) (values : List Expr)
  | localFunction (name : String) (f : Function)
  | ret (values : List Expr)
  | leave
  | goto (label : String)
  | label (name : String)

end

namespace Stmt

def isLabel : Stmt → Bool
  | .label _ => true
  | _ => false

def declares : Stmt → Nat
  | .locals names _ => names.length
  | .localFunction _ _ => 1
  | _ => 0

def afterLabel? (name : String) : List Stmt → Option (List Stmt)
  | [] => none
  | .label n :: rest => if n = name then some rest else afterLabel? name rest
  | _ :: rest => afterLabel? name rest

def declared (body : List Stmt) : Nat := body.foldl (fun n s => n + s.declares) 0

end Stmt

-- A chunk is the body of a function with any number of arguments.
abbrev Chunk := List Stmt

namespace Expr

def atLine (line : Nat) : Expr → Expr
  -- An index that is still to be carried out belongs to the line on which it is.
  | name n _ => name n line
  | index base key _ => index base key line
  | binary .and a b l => binary .and a (atLine line b) l
  | binary .or a b l => binary .or a (atLine line b) l
  | e => e

end Expr

end CallGuard.Lua
