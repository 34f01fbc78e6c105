import CallGuard.Cel.Expr
import CallGuard.Cel.Fault
import CallGuard.Text.Blank

set_option autoImplicit false

namespace CallGuard.Cel

open Value

def checkedInt (op : String) (a b : Int) (result : Int) : Result Value :=
  if fitsInt result then .ok (int result) else fail (.overflow op (int a) (int b))

def checkedUint (op : String) (a b : Nat) (result : Int) : Result Value :=
  if fitsUint result then .ok (uint result.toNat) else fail (.overflow op (uint a) (uint b))

def orOverflow {α : Type} (op : String) (a b : Value) (make : α → Value) :
    Option α → Result Value
  | some x => .ok (make x)
  | none => fail (.overflow op a b)

def add (a b : Value) : Result Value :=
  match a, b with
  | int x, int y => checkedInt "add" x y (x + y)
  | uint x, uint y => checkedUint "add" x y ((x : Int) + y)
  | double x, double y => .ok (double (x + y))
  | string x, string y => .ok (string (x ++ y))
  | list x, list y => .ok (list (x ++ y))
  | duration x, duration y => orOverflow "add" a b duration (x.add? y)
  | timestamp x, duration y => orOverflow "add" a b timestamp (x.add? y)
  | duration x, timestamp y => orOverflow "add" a b timestamp (y.add? x)
  | a, b => fail (.unsupportedBinary "add" a b)

def sub (a b : Value) : Result Value :=
  match a, b with
  | int x, int y => checkedInt "sub" x y (x - y)
  | uint x, uint y => checkedUint "sub" x y ((x : Int) - y)
  | double x, double y => .ok (double (x - y))
  | duration x, duration y => orOverflow "sub" a b duration (x.sub? y)
  | timestamp x, duration y => orOverflow "sub" a b timestamp (x.sub? y)
  | timestamp x, timestamp y => .ok (duration (x.difference y))
  | a, b => fail (.unsupportedBinary "sub" a b)

def mul (a b : Value) : Result Value :=
  match a, b with
  | int x, int y => checkedInt "mul" x y (x * y)
  | uint x, uint y => checkedUint "mul" x y ((x : Int) * y)
  | double x, double y => .ok (double (x * y))
  | a, b => fail (.unsupportedBinary "mul" a b)

def div (a b : Value) : Result Value :=
  -- Division goes toward zero.
  match a, b with
  | int x, int y =>
    if y = 0 then fail (.divisionByZero a) else checkedInt "div" x y (x.tdiv y)
  | uint x, uint y =>
    if y = 0 then fail (.divisionByZero a) else .ok (uint (x / y))
  | double x, double y => .ok (double (x / y))
  | a, b => fail (.unsupportedBinary "div" a b)

def rem (a b : Value) : Result Value :=
  -- The remainder has the sign of the dividend, and overflows where the quotient does.
  match a, b with
  | int x, int y =>
    if y = 0 then fail (.remainderByZero a)
    else if !fitsInt (x.tdiv y) then fail (.overflow "rem" a b)
    else .ok (int (x.tmod y))
  | uint x, uint y =>
    if y = 0 then fail (.remainderByZero a) else .ok (uint (x % y))
  | a, b => fail (.unsupportedBinary "rem" a b)

def negate : Value → Result Value
  -- Negation of the least integer gives itself.
  | int x => .ok (int (if x = -0x8000000000000000 then x else -x))
  | double x => .ok (double (-x))
  | a => fail (.unsupportedUnary "minus" a)

def compareWith (test : Ordering → Bool) (a b : Value) : Result Value :=
  match a.order? b with
  | some o => .ok (bool (test o))
  | none => fail (.notComparable a b)

def member (a b : Value) : Result Value :=
  match a, b with
  | string x, string y => .ok (bool (Text.occursIn x.toList y.toList))
  | a, list items => .ok (bool (Value.contains items a))
  | a, map entries =>
    match a.toKey? with
    | some k => .ok (bool (entries.lookup k).isSome)
    | none => .ok (bool false)
  | a, b => fail (.notComparable a b)

def byteAt? (i : Nat) : List Char → Option Char
  | [] => none
  | c :: cs =>
    if i = 0 then if c.utf8Size = 1 then some c else none
    else if i < c.utf8Size then none
    else byteAt? (i - c.utf8Size) cs

def orNull : Option Value → Result Value
  | some v => .ok v
  | none => .ok null

def index (a b : Value) : Result Value :=
  -- What lies at an index; null when nothing does.
  match a, b with
  | list items, int i => orNull (if 0 ≤ i then items[i.toNat]? else none)
  | string s, int i =>
    orNull (if 0 ≤ i then (byteAt? i.toNat s.toList).map fun c => string c.toString else none)
  | map entries, int i => orNull (entries.lookup (.int i))
  | map entries, uint n => orNull (entries.lookup (.uint n))
  | map entries, .bool k => orNull (entries.lookup (.bool k))
  | map entries, string s => orNull (entries.lookup (.string s))
  | map _, i => fail (.mapIndex i)
  | list _, i => fail (.listIndex i)
  | a, i => fail (.index a i)

def BinaryOp.apply : BinaryOp → Value → Value → Result Value
  | .add, a, b => Cel.add a b
  | .sub, a, b => Cel.sub a b
  | .mul, a, b => Cel.mul a b
  | .div, a, b => Cel.div a b
  | .rem, a, b => Cel.rem a b
  | .eq, a, b => .ok (bool (a.same b))
  | .ne, a, b => .ok (bool (!a.same b))
  | .lt, a, b => compareWith (· == .lt) a b
  | .le, a, b => compareWith (· != .gt) a b
  | .gt, a, b => compareWith (· == .gt) a b
  | .ge, a, b => compareWith (· != .lt) a b
  | .member, a, b => Cel.member a b
  | .index, a, b => Cel.index a b
  | .and, a, b => .ok (bool (a.truth && b.truth))
  | .or, a, b => .ok (if a.truth then a else b)

def UnaryOp.apply : UnaryOp → Value → Result Value
  | .not, a => .ok (bool (!a.truth))
  | .negate, a => Cel.negate a
  | .notStrictlyFalse, .bool b => .ok (.bool b)
  | .notStrictlyFalse, _ => .ok (.bool true)

end CallGuard.Cel
