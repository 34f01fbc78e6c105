import CallGuard.Lua.Reader

set_option autoImplicit false

namespace CallGuard.Lua

structure Site where
  -- Visible variables, the innermost first, of the function and those around it.
  visible : List (String × Attribute)
  -- How many variables of the function are alive, with those that loops keep for themselves.
  alive : Nat
  isVararg : Bool
  inLoop : Bool
  -- Labels that have come before, in the blocks that are still open.
  labels : List String

namespace Site

def variableLimit : Nat := 200

def declare (s : Site) (names : List (String × Attribute)) : Site :=
  { s with visible := names.reverse ++ s.visible, alive := s.alive + names.length }

def declareAll (s : Site) (names : List String) : Site := s.declare (names.map (·, .regular))

def enterLoop (s : Site) (hidden : Nat) : Site :=
  -- A loop keeps some variables of its own beside those of the program.
  { s with alive := s.alive + hidden, inLoop := true }

def withinLimit (s : Site) : Bool := s.alive ≤ variableLimit

def isAssignable (s : Site) (name : String) : Bool :=
  match s.visible.lookup name with
  | some .constant => false
  | some .closed => false
  | _ => true

def enterFunction (s : Site) (names : List String) (isVararg : Bool) : Site :=
  { visible := (names.map fun n => (n, Attribute.regular)).reverse ++ s.visible
    alive := names.length
    isVararg
    inLoop := false
    labels := [] }

def ofChunk : Site := ⟨[], 0, true, false, []⟩

end Site

namespace Stmt

-- Nothing is in scope after the last statement of a block, unless a test follows it.
def mayJump (name : String) (testFollows : Bool) (skipped : Bool) : List Stmt → Bool
  | [] => false
  | .label n :: rest =>
    if n = name then !skipped || (!testFollows && rest.all isLabel)
    else mayJump name testFollows skipped rest
  | s :: rest => mayJump name testFollows (skipped || s.declares != 0) rest

def resolve (block rest : List Stmt) (testFollows : Bool) (jumps : List String) :
    Option (List String) :=
  let inside := jumps.filter fun j => (afterLabel? j block).isSome
  let ahead := inside.filter fun j => (afterLabel? j rest).isSome
  if ahead.all fun j => mayJump j testFollows false rest then
    some (jumps.filter fun j => (afterLabel? j block).isNone)
  else none

def siteAfterOne (s : Site) : Stmt → Site
  | .locals names _ => s.declare names
  | .localFunction name _ => s.declareAll [name]
  | .label name => { s with labels := name :: s.labels }
  | _ => s

def siteAfter (s : Site) (body : List Stmt) : Site := body.foldl siteAfterOne s

end Stmt

open Stmt

mutual

def Expr.isScoped (s : Site) : Expr → Bool
  | .varargs => s.isVararg
  | .function f => Function.isScoped s f
  | .index base key _ => Expr.isScoped s base && Expr.isScoped s key
  | .call f args _ => Expr.isScoped s f && Expr.areScoped s args
  | .method o _ args _ _ => Expr.isScoped s o && Expr.areScoped s args
  | .unary _ e _ => Expr.isScoped s e
  | .binary _ a b _ => Expr.isScoped s a && Expr.isScoped s b
  | .paren e => Expr.isScoped s e
  | .table fields => Field.areScoped s fields
  | .nil => true
  | .bool _ => true
  | .number _ => true
  | .string _ => true
  | .name _ _ => true

def Expr.areScoped (s : Site) : List Expr → Bool
  | [] => true
  | e :: es => Expr.isScoped s e && Expr.areScoped s es

def Field.isScoped (s : Site) : Field → Bool
  | .item e => Expr.isScoped s e
  | .entry k v => Expr.isScoped s k && Expr.isScoped s v

def Field.areScoped (s : Site) : List Field → Bool
  | [] => true
  | f :: fs => Field.isScoped s f && Field.areScoped s fs

def Function.isScoped (s : Site) : Function → Bool
  | .mk params isVararg body =>
    let inner := s.enterFunction params isVararg
    inner.withinLimit && Stmt.jumpsOfBlock body false inner body == some []

def Expr.areTargets (s : Site) : List Expr → Bool
  -- Targets that are variables must not be constants.
  | [] => true
  | .name n _ :: es => s.isAssignable n && Expr.areTargets s es
  | e :: es => Expr.isScoped s e && Expr.areTargets s es

def Stmt.jumps (s : Site) : Stmt → Option (List String)
  | .assign targets values _ =>
    if Expr.areTargets s targets && Expr.areScoped s values then some [] else none
  | .call e => if Expr.isScoped s e then some [] else none
  | .block body => Stmt.jumpsOfBlock body false s body
  | .whileLoop test body =>
    if Expr.isScoped s test then Stmt.jumpsOfBlock body false (s.enterLoop 0) body else none
  | .repeatLoop body test =>
    let inner := s.enterLoop 0
    if Expr.isScoped (Stmt.siteAfter inner body) test then Stmt.jumpsOfBlock body true inner body
    else none
  | .cond test yes no =>
    if Expr.isScoped s test then
      match Stmt.jumpsOfBlock yes false s yes, Stmt.jumpsOfBlock no false s no with
      | some a, some b => some (a ++ b)
      | _, _ => none
    else none
  | .forRange name start limit step body =>
    let inner := (s.enterLoop 3).declareAll [name]
    let stepIsScoped := match step with
      | some e => Expr.isScoped s e
      | none => true
    if Expr.isScoped s start && Expr.isScoped s limit && stepIsScoped && inner.withinLimit then
      Stmt.jumpsOfBlock body false inner body
    else none
  | .forEach names values body _ =>
    let inner := (s.enterLoop 4).declareAll names
    if Expr.areScoped s values && inner.withinLimit then Stmt.jumpsOfBlock body false inner body
    else none
  | .locals names values =>
    let closing := (names.filter fun n => n.2 == .closed).length
    if Expr.areScoped s values && (s.declare names).withinLimit && closing ≤ 1 then some []
    else none
  | .localFunction name f =>
    let inner := s.declareAll [name]
    if inner.withinLimit && Function.isScoped inner f then some [] else none
  | .ret values => if Expr.areScoped s values then some [] else none
  | .leave => if s.inLoop then some [] else none
  | .goto target => some [target]
  | .label name => if s.labels.contains name then none else some []

def Stmt.jumpsOfBlock (block : List Stmt) (testFollows : Bool) (s : Site) :
    List Stmt → Option (List String)
  | [] => some []
  | st :: rest =>
    match Stmt.jumps s st with
    | none => none
    | some found =>
      match Stmt.resolve block rest testFollows found,
        Stmt.jumpsOfBlock block testFollows (Stmt.siteAfterOne s st) rest with
      | some a, some b => some (a ++ b)
      | _, _ => none

end

def Chunk.isScoped (c : Chunk) : Bool := Stmt.jumpsOfBlock c false .ofChunk c == some []

end CallGuard.Lua
