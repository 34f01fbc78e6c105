import CallGuard.Lua.Chunk
import CallGuard.Lua.Table

set_option autoImplicit false

namespace CallGuard.Lua

-- Visible variables with their cells, the innermost first.
abbrev Bindings := List (String × CellId)

structure Closure where
  function : Function
  captured : Bindings

inductive Callable
  | closure (c : Closure)
  | native (n : Native)

instance : Inhabited Closure := ⟨⟨.mk [] false [], []⟩⟩

structure Heap where
  tables : Array Table
  functions : Array Closure
  cells : Array Value
  -- The table in which a field of a string is looked up.
  stringMethods : TableId

namespace Heap

def empty : Heap := ⟨#[], #[], #[], 0⟩

def newTable (h : Heap) (t : Table) : TableId × Heap :=
  (h.tables.size, { h with tables := h.tables.push t })

def newFunction (h : Heap) (f : Closure) : FunctionId × Heap :=
  (h.functions.size, { h with functions := h.functions.push f })

def newCell (h : Heap) (v : Value) : CellId × Heap :=
  (h.cells.size, { h with cells := h.cells.push v })

def cell (h : Heap) (c : CellId) : Value := h.cells.getD c .nil

def setCell (h : Heap) (c : CellId) (v : Value) : Heap :=
  { h with cells := h.cells.setIfInBounds c v }

def rawGet (h : Heap) (id : TableId) (k : Key) : Value := (h.tables.getD id .empty).get k

def modifyTable (h : Heap) (id : TableId) (f : Table → Table) : Heap :=
  { h with tables := h.tables.modify id f }

def rawSet (h : Heap) (id : TableId) (k : Key) (v : Value) : Heap :=
  h.modifyTable id fun t => t.set k v

def setText (h : Heap) (id : TableId) (name : String) (v : Value) : Heap :=
  h.rawSet id (.string (.ofText name)) v

-- The heap without what has been made since it was as large as another one.
def restrict (h base : Heap) : Heap :=
  { h with
    tables := h.tables.take base.tables.size
    functions := h.functions.take base.functions.size
    cells := h.cells.take base.cells.size }

def handlers (h : Heap) (id : TableId) : Handlers := (h.tables.getD id .empty).handlers

section

variable {h : Heap} {id : TableId} {t : Table}

theorem getD_tables (found : h.tables[id]? = some t) : h.tables.getD id .empty = t := by
  rw [Array.getD_eq_getD_getElem?, found]
  rfl

theorem rawGet_eq (found : h.tables[id]? = some t) (k : Key) : h.rawGet id k = t.get k := by
  rw [rawGet, getD_tables found]

theorem handlers_eq (found : h.tables[id]? = some t) : h.handlers id = t.handlers := by
  rw [handlers, getD_tables found]

theorem rawGet_congr {g : Heap} (same : h.tables[id]? = g.tables[id]?) (k : Key) :
    h.rawGet id k = g.rawGet id k := by
  rw [rawGet, rawGet, Array.getD_eq_getD_getElem?, Array.getD_eq_getD_getElem?, same]

end

end Heap

end CallGuard.Lua
