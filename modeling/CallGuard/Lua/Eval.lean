import CallGuard.Lua.Operation

set_option autoImplicit false

namespace CallGuard.Lua

open Routine

inductive Operand
  -- A value, or the cell where it will be found.
  | value (v : Value)
  | cell (c : CellId)

namespace Operand

def get : Operand → Routine Value
  | value v => return v
  | cell c => read fun h => h.cell c

def settle (o : Operand) : Routine Operand := do
  return .value (← o.get)

end Operand

def Expr.withoutParens : Expr → Expr
  | .paren e => withoutParens e
  | e => e

def Expr.ownVariable? (s : Scope) (e : Expr) : Option CellId :=
  match e.withoutParens with
  | .name n _ => s.locals.lookup n
  | _ => none

def single (r : Routine (List Value)) : Routine Value := do
  return firstOf (← r)

def operand (s : Scope) (e : Expr) (r : Routine (List Value)) : Routine Operand :=
  match e.ownVariable? s with
  | some c => return .cell c
  | none => do return .value (← single r)

def environmentName : String := "_ENV"

def environment (s : Scope) : Routine Value :=
  match s.find? environmentName with
  | some c => read fun h => h.cell c
  | none => invalid

def readName (s : Scope) (n : String) (line : Nat) : Routine Value :=
  match s.find? n with
  | some c => read fun h => h.cell c
  | none => do (← environment s).index (.text n) (.onLine line)

def newTable (items others : Nat) : Routine TableId :=
  alloc fun h => h.newTable (.ofSizes items others)

def newClosure (s : Scope) (f : Function) : Routine Value := do
  return .function (← alloc fun h => h.newFunction ⟨f, s.all⟩)

-- The items of a table come in batches.
def batchSize : Nat := 50

def putItems (id : TableId) (start : Nat) (vs : List Value) : Routine Unit :=
  update fun h => h.modifyTable id fun t =>
    (vs.foldl (fun (t, i) v => (t.setInt (.ofNat i) v, i + 1))
      (t.reserve (start + vs.length - 1), start)).1

def isOpen : Expr → Bool
  | .call _ _ _ => true
  | .method _ _ _ _ _ => true
  | .varargs => true
  | _ => false

def fieldCounts : List Field → Nat × Nat
  | [] => (0, 0)
  | [.item e] => if isOpen e then (0, 0) else (1, 0)
  | .item _ :: fs => ((fieldCounts fs).1 + 1, (fieldCounts fs).2)
  | .entry _ _ :: fs => ((fieldCounts fs).1, (fieldCounts fs).2 + 1)

def adjust : Nat → List Value → List Value
  | 0, _ => []
  | n + 1, [] => .nil :: adjust n []
  | n + 1, v :: vs => v :: adjust n vs

inductive Target
  | cell (c : CellId)
  | entry (table key : Operand)

def Target.isCell (c : CellId) : Target → Bool
  | .cell d => c == d
  | _ => false

def Operand.settleIn (later : List Target) (o : Operand) : Routine Operand :=
  match o with
  | .cell c => if later.any (Target.isCell c) then o.settle else return o
  | o => return o

def settleAll : List Target → Routine (List Target)
  -- Where a variable is itself assigned later in a list, its value is taken beforehand.
  | [] => return []
  | .cell c :: later => do return .cell c :: (← settleAll later)
  | .entry t k :: later => do
    let t ← t.settleIn later
    let k ← k.settleIn later
    return .entry t k :: (← settleAll later)

def assignAll (site : CallSite) : List (Target × Value) → Routine Unit
  -- The last target is assigned first.
  | [] => return ()
  | (t, v) :: rest => do
    assignAll site rest
    match t with
    | .cell c => update fun h => h.setCell c v
    | .entry t k => (← t.get).setIndex (← k.get) v site

def nameTarget (s : Scope) (n : String) : Routine Target :=
  match s.find? n with
  | some c => return .cell c
  | none => do return .entry (.value (← environment s)) (.value (.text n))

def bindAll : List String → List Value → Scope → Routine Scope
  | [], _, s => return s
  | n :: ns, vs, s => do
    let c ← alloc fun h => h.newCell (firstOf vs)
    bindAll ns vs.tail (s.bind n c)

-- A variable that is closed at the end of its block has to be empty here, since nothing can be
-- closed.
def closable (a : Attribute) (v : Value) : Bool := a != .closed || !v.truth

def rangeCount (start limit step : Int64) : Nat :=
  let a := start.toInt
  let b := limit.toInt
  if 0 < step.toInt then if b < a then 0 else ((b - a) / step.toInt).toNat + 1
  else if a < b then 0
  else ((a - b) / -step.toInt).toNat + 1

-- Rounded towards the start and cut to an integer; nothing when the loop does not run at all.
def rangeLimit (step : Int64) : Num → Option Int64
  | .int i => some i
  | .float x =>
    let down := step.toInt < 0
    match if down then ceilInt? x else floorInt? x with
    | some i => some i
    | none =>
      if 0 < x then if down then none else some Int64.maxValue
      else if down then some Int64.minValue else none

def startRange (name : String) (body : List Stmt) (s : Scope) (start limit step : Value) :
    Routine Completion :=
  -- Starts a loop over numbers, whose controls may be spelled by strings.
  match start, step with
  | .int i, .int d => do
    if d = 0 then invalid
    let limit ← ofOption limit.toNum?
    match rangeLimit d limit with
    | none => return .normal s
    | some last => enter (.count name i d (rangeCount i last d) body s)
  | _, _ => do
    let limit ← ofOption (limit.toNum?.map Num.toFloat)
    let step ← ofOption (step.toNum?.map Num.toFloat)
    let start ← ofOption (start.toNum?.map Num.toFloat)
    if step == 0 then invalid
    if if 0 < step then limit < start else start < limit then return .normal s
    enter (.countFloat name start step limit body s)

def afterLoop (s : Scope) : Completion → Completion
  -- A loop ends normally also where it is left.
  | .normal _ => .normal s
  | .left => .normal s
  | c => c

def afterBlock (s : Scope) : Completion → Completion
  -- A block leaves nothing of its variables behind.
  | .normal _ => .normal s
  | c => c

mutual

def eval (s : Scope) : Expr → Routine (List Value)
  | .nil => return [.nil]
  | .bool b => return [.bool b]
  | .number n => return [.ofNum n]
  | .string bs => return [.string bs]
  | .varargs => return s.varargs
  | .function f => do return [← newClosure s f]
  | .name n line => do return [← readName s n line]
  | .index base key line => do
    let b ← operand s base (eval s base)
    let k ← single (eval s key)
    return [← (← b.get).index k (.onLine line)]
  | .call f args line => do
    let f ← single (eval s f)
    let vs ← evalList s args
    f.call vs (.onLine line)
  | .method object name args nameLine line => do
    let o ← single (eval s object)
    let f ← o.index (.text name) (.onLine nameLine)
    let vs ← evalList s args
    f.call (o :: vs) (.onLine line)
  | .unary op e line => do
    let v ← single (eval s e)
    return [← op.apply v (.onLine line)]
  | .binary .and a b _ => do
    let x ← single (eval s a)
    if x.truth then return [← single (eval s b)]
    else return [x]
  | .binary .or a b _ => do
    let x ← single (eval s a)
    if x.truth then return [x]
    else return [← single (eval s b)]
  | .binary .concat a b _ => do
    let x ← single (eval s a)
    let y ← single (eval s b)
    let v ← ofOption (Value.concat? x y)
    spend (Value.byteCount v / 16)
    return [v]
  | .binary op a b _ => do
    let x ← operand s a (eval s a)
    let y ← single (eval s b)
    return [← ofOption (op.value? (← x.get) y)]
  | .paren e => do return [← single (eval s e)]
  | .table fields => do
    let (items, others) := fieldCounts fields
    let id ← newTable items others
    evalFields s id 1 [] fields
    return [.table id]

def evalList (s : Scope) : List Expr → Routine (List Value)
  -- All values but the last one are single.
  | [] => return []
  | [e] => eval s e
  | e :: es => do
    let v ← single (eval s e)
    return v :: (← evalList s es)

def evalFields (s : Scope) (id : TableId) (start : Nat) (kept : List Value) :
    List Field → Routine Unit
  -- The fields of a table: items are kept, latest first, until there is a batch of them; `start` is
  -- the place of the first that is kept.
  | [] => putItems id start kept.reverse
  | [.item e] => do
    let vs ← eval s e
    putItems id start (kept.reverse ++ (if isOpen e then vs else [firstOf vs]))
  | .item e :: fs => do
    let v ← single (eval s e)
    if kept.length + 1 = batchSize then
      putItems id start (v :: kept).reverse
      evalFields s id (start + batchSize) [] fs
    else evalFields s id start (v :: kept) fs
  | .entry key value :: fs => do
    let k ← operand s key (eval s key)
    let v ← single (eval s value)
    Value.rawSetIndex id (← k.get) v
    evalFields s id start kept fs

def evalTargets (s : Scope) : List Expr → Routine (List Target)
  -- The table of an entry is looked at late also when it is a variable around the function, if the
  -- key is a string.
  | [] => return []
  | .name n _ :: es => do
    let t ← nameTarget s n
    return t :: (← evalTargets s es)
  | .index base key _ :: es => do
    let b ← operand s base (eval s base)
    let k ← operand s key (eval s key)
    return .entry b k :: (← evalTargets s es)
  | e :: es => do
    discard (eval s e)
    evalTargets s es

def exec (s : Scope) : Stmt → Routine Completion
  | .assign targets values line => do
    let ts ← evalTargets s targets
    let ts ← settleAll ts
    let vs ← evalList s values
    assignAll (.onLine line) (ts.zip (adjust ts.length vs))
    return .normal s
  | .call e => do
    discard (eval s e)
    return .normal s
  | .block body => do return afterBlock s (← execBlock s body)
  | .whileLoop test body => do return afterLoop s (← enter (.whileLoop test body s))
  | .repeatLoop body test => do return afterLoop s (← enter (.repeatLoop body test s))
  | .cond test yes no => do
    let t ← single (eval s test)
    if t.truth then return afterBlock s (← execBlock s yes)
    else return afterBlock s (← execBlock s no)
  | .forRange name start limit step body => do
    let i ← single (eval s start)
    let l ← single (eval s limit)
    let d ← match step with
      | some e => single (eval s e)
      | none => pure (.int 1)
    return afterLoop s (← startRange name body s i l d)
  | .forEach names values body line => do
    let vs ← evalList s values
    match adjust 4 vs with
    | [f, state, control, closing] =>
      if closing.truth then invalid
      return afterLoop s (← enter (.iterate names f state control body line s))
    | _ => invalid
  | .locals names values => do
    let vs := adjust names.length (← evalList s values)
    if !(names.zip vs).all fun (n, v) => closable n.2 v then invalid
    return .normal (← bindAll (names.map (·.1)) vs s)
  | .localFunction name f => do
    let s ← bindAll [name] [] s
    let v ← newClosure s f
    match s.find? name with
    | some c => update fun h => h.setCell c v
    | none => return .normal s
    return .normal s
  | .ret [.call f args line] => do
    let f ← single (eval s f)
    let vs ← evalList s args
    return .called f vs line
  | .ret [.method object name args nameLine line] => do
    let o ← single (eval s object)
    let f ← o.index (.text name) (.onLine nameLine)
    let vs ← evalList s args
    return .called f (o :: vs) line
  | .ret values => do return .returned (← evalList s values)
  | .leave => return .left
  | .goto target => return .jumped target s
  | .label _ => return .normal s

def execBlock (s : Scope) (body : List Stmt) : Routine Completion :=
  -- A block to which jumps may lead back is a task of its own.
  if body.any Stmt.isLabel then enter (.labelled body body s.locals.length s)
  else execAll s body

def execAll (s : Scope) : List Stmt → Routine Completion
  | [] => return .normal s
  | st :: rest => do
    match ← exec s st with
    | .normal s => execAll s rest
    | c => return c

end

end CallGuard.Lua
