import CallGuard.Context
import CallGuard.Error
import CallGuard.Lua.Machine
import CallGuard.Lua.Options
import CallGuard.Lua.Token

set_option autoImplicit false

namespace CallGuard.Lua

def Value.ofNumber : Json.Number → Value
  -- A number is an integer if it fits.
  | .integer i => if fitsInt i then .int (.ofInt i) else .float (Float.ofInt i)
  | .double x => .float x

mutual

def Heap.ofJson (h : Heap) : Json → Value × Heap
  | .null => (.nil, h)
  | .bool b => (.bool b, h)
  | .num n => (.ofNumber n, h)
  | .str s => (.text s, h)
  | .arr items =>
    let (t, h) := h.ofItems 1 .empty items
    let (id, h) := h.newTable t
    (.table id, h)
  | .obj fields =>
    let (t, h) := h.ofFields .empty fields
    let (id, h) := h.newTable t
    (.table id, h)

def Heap.ofItems (h : Heap) (i : Nat) (t : Table) : List Json → Table × Heap
  | [] => (t, h)
  | j :: js =>
    let (v, h) := h.ofJson j
    h.ofItems (i + 1) (t.setInt (.ofNat i) v) js

def Heap.ofFields (h : Heap) (t : Table) : List (String × Json) → Table × Heap
  | [] => (t, h)
  | (name, j) :: fields =>
    let (v, h) := h.ofJson j
    h.ofFields (t.setText name v) fields

end

mutual

-- Shared by all calls, so every table is seen through a view.
def Heap.viewOfJson (h : Heap) (support : Support) : Json → Value × Heap
  | .null => (.nil, h)
  | .bool b => (.bool b, h)
  | .num n => (.ofNumber n, h)
  | .str s => (.text s, h)
  | .arr items =>
    let (t, h) := h.viewItems support 1 .empty items
    let (source, h) := h.newTable t
    let (view, h) := h.newView source support
    (.table view, h)
  | .obj fields =>
    let (t, h) := h.viewFields support .empty fields
    let (source, h) := h.newTable t
    let (view, h) := h.newView source support
    (.table view, h)

def Heap.viewItems (h : Heap) (support : Support) (i : Nat) (t : Table) :
    List Json → Table × Heap
  | [] => (t, h)
  | j :: js =>
    let (v, h) := h.viewOfJson support j
    h.viewItems support (i + 1) (t.setInt (.ofNat i) v) js

def Heap.viewFields (h : Heap) (support : Support) (t : Table) :
    List (String × Json) → Table × Heap
  | [] => (t, h)
  | (name, j) :: fields =>
    let (v, h) := h.viewOfJson support j
    h.viewFields support (t.setText name v) fields

end

namespace Builtins

def containsName : String := "contains"

def isIdentifier (name : String) : Bool :=
  match name.toList with
  | [] => false
  | c :: cs => (c.isAlpha || c == '_') && cs.all fun c => c.isAlphanum || c == '_'

def checkName (name : String) : Except Error Unit :=
  -- A constant may have any name that is no variable of a call and not the one helper.
  if !isIdentifier name then
    .error (.config ("lua builtin '" ++ name ++ "' is not a valid identifier" : String))
  else if Variable.isDeclared name || name == containsName then
    .error (.config ("lua builtin '" ++ name ++ "' shadows a reserved name" : String))
  else .ok ()

def globalsName : String := "_G"

def found (builtins : Keyed Json) (name : String) : Option Json :=
  -- The constant that is found under a name among the globals. When a constant takes the place of
  -- the table of globals, its fields are found instead.
  match builtins.get? globalsName with
  | some globals => globals.field? name
  | none => builtins.get? name

def essential : List String := ["ipairs", "setmetatable", "type"]

def permitStart (builtins : Keyed Json) : Bool :=
  -- Whether a state can start: no constant has the place of what is needed for that, and each name
  -- can be written as one.
  builtins.keys.all (fun name => !(Token.keywords.contains name || essential.contains name)) &&
    match builtins.get? globalsName with
    | none => true
    | some (.str _) => true
    | some (.arr _) => true
    | some (.obj _) => true
    | some _ => false

def support (builtins : Keyed Json) : Support where
  canReport := !(builtins.contains "error" || builtins.contains "tostring")
  canStep := !builtins.contains "next"

end Builtins

structure State where
  heap : Heap
  -- Finds what the names stand for that are not bound for a call.
  names : Native
  random : Random

namespace State

def tableOf (entries : List (String × Value)) : Table :=
  entries.foldl (fun t (name, v) => t.setText name v) .empty

def stringTable : Table :=
  tableOf (StringFunction.names.map fun (name, f) => (name, .native (.string f)))

def tableTable : Table :=
  tableOf (TableFunction.names.map fun (name, f) => (name, .native (.table f)))

def mathTable : Table :=
  tableOf (MathFunction.names.map (fun (name, f) => (name, .native (.math f))) ++
    Library.numberConstants)

def standard (support : Support) (h : Heap) : List (String × Value) × Heap :=
  let (strings, h) := h.newTable stringTable
  let (tables, h) := h.newTable tableTable
  let (maths, h) := h.newTable mathTable
  let (stringView, h) := h.newView strings support
  let (tableView, h) := h.newView tables support
  let (mathView, h) := h.newView maths support
  (BaseFunction.names.map (fun (name, f) => (name, .native (.base f))) ++
    [("string", .table stringView), ("table", .table tableView), ("math", .table mathView)],
    { h with stringMethods := strings })

def constant (builtins : Keyed Json) (name : String) (h : Heap) : Value × Heap :=
  -- A constant as it is found. Where a text has taken the place of the table of globals, the
  -- functions on strings are found in it.
  match builtins.get? Builtins.globalsName with
  | some (.str _) => (h.rawGet h.stringMethods (.string (.ofText name)), h)
  | _ =>
    match Builtins.found builtins name with
    | some j => h.viewOfJson (Builtins.support builtins) j
    | none => (.nil, h)

def addConstants (builtins : Keyed Json) (names : TableId) : List String → Heap → Heap
  | [], h => h
  | name :: rest, h =>
    let (v, h) := constant builtins name h
    addConstants builtins names rest (h.setText names name v)

def ofBuiltins (builtins : Keyed Json) : Except Error State := do
  builtins.keys.forM Builtins.checkName
  if !Builtins.permitStart builtins then
    .error (.config (.cutAfter "cannot initialise lua state:"))
  let support := Builtins.support builtins
  let (entries, h) := standard support .empty
  let (names, h) := h.newTable (tableOf entries)
  let optional := Variable.all.map Variable.name ++ builtins.keys
  return ⟨addConstants builtins names builtins.keys h, .lookup names optional support, .ofSeed 0 0⟩

def bindings (c : Context) (h : Heap) : Table × Heap :=
  let (user, h) := h.ofJson c.user
  let (request, h) := h.ofJson c.requestValue
  let (metadata, h) := h.newTable (tableOf (c.metadata.entries.map fun (k, s) => (k, .text s)))
  (tableOf [
    (Variable.user.name, user), (Variable.request.name, request),
    (Variable.metadata.name, .table metadata), (Variable.isStream.name, .bool c.isStream),
    (Variable.method.name, .text c.method)], h)

def start (s : State) (chunk : Chunk) (c : Context) : Turn :=
  -- The start of a chunk, whose variables that are not declared are entries of a fresh table.
  let (entries, h) := bindings c s.heap
  let (env, h) := h.newTable { entries with handlers :=
    { Handlers.none with index := some s.names } }
  let (cell, h) := h.newCell (.table env)
  (execBlock ⟨[], [(environmentName, cell)], []⟩ chunk).run h

def run (s : State) (chunk : Chunk) (c : Context) (fuel : Nat) :
    Option Machine.Ending × Nat × State :=
  match Machine.run fuel (.initial s.random) (s.start chunk c) with
  | (ending, left, random, h) =>
    (ending, left, { s with heap := h.restrict s.heap, random := random })

end State

end CallGuard.Lua
