import CallGuard.Lua.Routine

set_option autoImplicit false

namespace CallGuard.Lua

def Value.byteCount : Value → Nat
  | .string s => s.size
  | _ => 0

def byteCounts (vs : List Value) : Nat := vs.foldl (fun n v => n + v.byteCount) 0

def firstOf (vs : List Value) : Value := vs.headD .nil

namespace Value

open Routine

def call (f : Value) (args : List Value) (site : CallSite) : Routine (List Value) :=
  match f with
  | .function id => do
    let c ← read fun h => h.functions.getD id default
    Routine.call (.closure c) args site
  | .native n => Routine.call (.native n) args site
  | _ => invalid

def rawIndex (id : TableId) (k : Value) : Routine Value :=
  -- The entry of a table itself; there is none for nil and NaN.
  match k.toKey? with
  | some key => read fun h => h.rawGet id key
  | none => pure .nil

def index (o k : Value) (site : CallSite) : Routine Value :=
  match o with
  | .table id => do
    let v ← rawIndex id k
    if v.isNil then
      match ← read fun h => (h.handlers id).index with
      | none => return .nil
      | some f => return firstOf (← Routine.call (.native f) [o, k] site.inside)
    else return v
  | .string _ => do rawIndex (← read Heap.stringMethods) k
  | _ => invalid

def rawSetIndex (id : TableId) (k v : Value) : Routine Unit :=
  match k.toKey? with
  | some key => update fun h => h.rawSet id key v
  | none => invalid

def setIndex (o k v : Value) (site : CallSite) : Routine Unit :=
  match o with
  | .table id => do
    let old ← rawIndex id k
    match ← read fun h => (h.handlers id).newIndex with
    | some f =>
      if old.isNil then discard (Routine.call (.native f) [o, k, v] site.inside)
      else rawSetIndex id k v
    | none => rawSetIndex id k v
  | _ => invalid

def length (o : Value) (site : CallSite) : Routine Value :=
  match o with
  | .string s => return .int (.ofNat s.size)
  | .table id => do
    match ← read fun h => (h.handlers id).length with
    | some f => return firstOf (← Routine.call (.native f) [o] site.inside)
    | none => return .int (.ofNat (← read fun h => (h.tables.getD id .empty).length))
  | _ => invalid

def arith? (op : Arith) (a b : Value) : Option Value :=
  -- The numbers may be spelled by strings.
  match a.toNum?, b.toNum? with
  | some m, some n => (op.apply m n).map ofNum
  | _, _ => none

def bitwise? (op : Bitwise) (a b : Value) : Option Value :=
  -- Floats have to be integral; strings do not stand for numbers.
  match a.number?.bind Num.toInt?, b.number?.bind Num.toInt? with
  | some m, some n => some (.int (op.apply m n))
  | _, _ => none

def concat? (a b : Value) : Option Value :=
  match a.toBytes?, b.toBytes? with
  | some s, some t => some (.string (s ++ t))
  | _, _ => none

def less? (a b : Value) : Option Bool := (a.order? b).map fun o => o == some .lt

def lessEqual? (a b : Value) : Option Bool :=
  (a.order? b).map fun o => o == some .lt || o == some .eq

def negate? (a : Value) : Option Value :=
  match a.toNum? with
  | some (.int i) => some (.int (-i))
  | some (.float x) => some (.float (-x))
  | none => none

def complement? (a : Value) : Option Value :=
  (a.number?.bind Num.toInt?).map fun i => .int (~~~ i)

end Value

def UnaryOp.apply (op : UnaryOp) (v : Value) (site : CallSite) : Routine Value :=
  match op with
  | .not => return .bool !v.truth
  | .negate => .ofOption v.negate?
  | .complement => .ofOption v.complement?
  | .length => v.length site

def BinaryOp.value? (op : BinaryOp) (a b : Value) : Option Value :=
  match op with
  | .arith op => Value.arith? op a b
  | .bitwise op => Value.bitwise? op a b
  | .concat => Value.concat? a b
  | .equal => some (.bool (a.same b))
  | .notEqual => some (.bool !(a.same b))
  | .less => (Value.less? a b).map .bool
  | .lessEqual => (Value.lessEqual? a b).map .bool
  | .greater => (Value.less? b a).map .bool
  | .greaterEqual => (Value.lessEqual? b a).map .bool
  | .and => some b
  | .or => some b

end CallGuard.Lua
