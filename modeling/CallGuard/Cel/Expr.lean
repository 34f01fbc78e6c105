set_option autoImplicit false

namespace CallGuard.Cel

inductive Literal
  | null
  | bool (value : Bool)
  | int (value : Int)
  | uint (value : Nat)
  | double (value : Float)
  | string (value : String)
  | bytes (value : List UInt8)

inductive UnaryOp
  | not
  | negate
  -- Only false is false.
  | notStrictlyFalse
deriving DecidableEq, Repr

inductive BinaryOp
  | add
  | sub
  | mul
  | div
  | rem
  | eq
  | ne
  | lt
  | le
  | gt
  | ge
  | member
  | index
  | and
  | or
deriving DecidableEq, Repr

inductive Expr
  | literal (value : Literal)
  | ident (name : String)
  | select (operand : Expr) (field : String)
  | has (operand : Expr) (field : String)
  | unary (op : UnaryOp) (operand : Expr)
  | binary (op : BinaryOp) (left right : Expr)
  | conditional (test yes no : Expr)
  | call (function : String) (args : List Expr)
  | method (target : Expr) (function : String) (args : List Expr)
  | list (items : List Expr)
  | map (entries : List (Expr × Expr))
  | message (fields : List (String × Expr))
  -- The items of a range are bound to `item` one after another; `accu` starts with `init`, and as
  -- long as `cond` holds it becomes `step`. In the end it is seen by `result`.
  | comprehension (item : String) (range : Expr) (accu : String) (init cond step result : Expr)

namespace Expr

def true : Expr := literal (.bool Bool.true)

def false : Expr := literal (.bool Bool.false)

-- The accumulator of every macro; no text can name it.
def accuName : String := "@result"

def accuVar : Expr := ident accuName

def identName? : Expr → Option String
  | ident name => some name
  | _ => none

def hasMacro? : Expr → Option Expr
  | select operand field => some (has operand field)
  | has operand field => some (has operand field)
  | _ => none

def allMacro (range : Expr) (item : String) (p : Expr) : Expr :=
  comprehension item range accuName true
    (unary .notStrictlyFalse accuVar) (binary .and accuVar p) accuVar

def existsMacro (range : Expr) (item : String) (p : Expr) : Expr :=
  comprehension item range accuName false
    (unary .notStrictlyFalse (unary .not accuVar)) (binary .or accuVar p) accuVar

def existsOneMacro (range : Expr) (item : String) (p : Expr) : Expr :=
  comprehension item range accuName (literal (.int 0)) true
    (conditional p (binary .add accuVar (literal (.int 1))) accuVar)
    (binary .eq accuVar (literal (.int 1)))

def appended (e : Expr) : Expr := binary .add accuVar (list [e])

def mapMacro (range : Expr) (item : String) (filter : Option Expr) (e : Expr) : Expr :=
  comprehension item range accuName (list []) true
    (match filter with
      | none => appended e
      | some p => conditional p (appended e) accuVar)
    accuVar

def filterMacro (range : Expr) (item : String) (p : Expr) : Expr :=
  comprehension item range accuName (list []) true
    (conditional p (appended (ident item)) accuVar) accuVar

def callOf? (function : String) (args : List Expr) : Option Expr :=
  match function, args with
  | "has", [e] => hasMacro? e
  | _, _ => some (call function args)

def methodOf? (target : Expr) (function : String) (args : List Expr) : Option Expr :=
  match function, args with
  | "all", [x, p] => x.identName?.map fun x => allMacro target x p
  | "exists", [x, p] => x.identName?.map fun x => existsMacro target x p
  | "exists_one", [x, p] => x.identName?.map fun x => existsOneMacro target x p
  | "existsOne", [x, p] => x.identName?.map fun x => existsOneMacro target x p
  | "map", [x, e] => x.identName?.map fun x => mapMacro target x none e
  | "map", [x, p, e] => x.identName?.map fun x => mapMacro target x (some p) e
  | "filter", [x, p] => x.identName?.map fun x => filterMacro target x p
  | _, _ => some (method target function args)

end Expr

end CallGuard.Cel
