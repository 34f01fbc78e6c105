import CallGuard.Proofs.Lua.Within

set_option autoImplicit false

namespace CallGuard.Lua.Heap

variable {P Q : TableId → Prop} {base h : Heap}

structure Within (P : TableId → Prop) (h : Heap) : Prop where
  tables : ∀ t ∈ h.tables, t.Within P
  cells : ∀ v ∈ h.cells, v.Within P

namespace Within

theorem table (within : h.Within P) (id : TableId) : (h.tables.getD id .empty).Within P :=
  getD_of_forall within.tables Table.empty_within id

theorem cell (within : h.Within P) (c : CellId) : (h.cell c).Within P :=
  getD_of_forall within.cells nil_within c

theorem rawGet (within : h.Within P) (id : TableId) (k : Key) : (h.rawGet id k).Within P :=
  (within.table id).get k

theorem handlers (within : h.Within P) (id : TableId) : (h.handlers id).Within P :=
  (within.table id).handlers

theorem newTable (within : h.Within P) {t : Table} (table : t.Within P) :
    (h.newTable t).2.Within P where
  tables u member := by
    rcases Array.mem_push.1 member with old | new
    · exact within.tables u old
    · exact new ▸ table
  cells := within.cells

theorem modifyTable (within : h.Within P) {f : Table → Table}
    (change : ∀ t : Table, t.Within P → (f t).Within P) (id : TableId) :
    (h.modifyTable id f).Within P where
  tables t member := by
    obtain ⟨i, bound, rfl⟩ := Array.mem_iff_getElem.1 member
    have small : i < h.tables.size := by simpa [Heap.modifyTable] using bound
    have old := within.tables _ (Array.getElem_mem small)
    simp only [Heap.modifyTable, Array.getElem_modify]
    split
    · exact change _ old
    · exact old
  cells := within.cells

end Within

def IsView (h : Heap) (id : TableId) : Prop :=
  ∃ source support, h.tables[id]? = some (Table.view source support)

theorem IsView.lt_size {id : TableId} (view : h.IsView id) : id < h.tables.size := by
  obtain ⟨_, _, found⟩ := view
  exact (Array.getElem?_eq_some_iff.1 found).1

theorem IsView.rawGet {id : TableId} (view : h.IsView id) (k : Key) : h.rawGet id k = .nil := by
  obtain ⟨source, support, found⟩ := view
  simp [Heap.rawGet_eq found]

theorem IsView.newIndex {id : TableId} (view : h.IsView id) :
    ∃ support, (h.handlers id).newIndex = some (.viewNewIndex support) := by
  obtain ⟨source, support, found⟩ := view
  exact ⟨support, by simp [Heap.handlers_eq found, Table.view]⟩

-- What a call may hold that has started on a heap: tables of its own, and views.
def Shows (base : Heap) (id : TableId) : Prop := base.tables.size ≤ id ∨ base.IsView id

structure Extends (h base : Heap) : Prop where
  kept : ∀ id, id < base.tables.size → h.tables[id]? = base.tables[id]?
  size : base.tables.size ≤ h.tables.size
  stringMethods : h.stringMethods = base.stringMethods
  within : h.Within base.Shows

namespace Extends

theorem refl (within : base.Within base.Shows) : base.Extends base :=
  ⟨fun _ _ => rfl, Nat.le_refl _, rfl, within⟩

theorem isView (ext : h.Extends base) {id : TableId} (view : base.IsView id) : h.IsView id := by
  obtain ⟨source, support, found⟩ := view
  exact ⟨source, support, (ext.kept id (IsView.lt_size ⟨source, support, found⟩)).trans found⟩

theorem newTable (ext : h.Extends base) {t : Table} (table : t.Within base.Shows) :
    (h.newTable t).2.Extends base where
  kept id bound := by
    have old : id < h.tables.size := Nat.lt_of_lt_of_le bound ext.size
    simpa [Heap.newTable, Array.getElem?_push, Nat.ne_of_lt old] using ext.kept id bound
  size := by
    have := ext.size
    simp only [Heap.newTable, Array.size_push]
    omega
  stringMethods := ext.stringMethods
  within := ext.within.newTable table

theorem newFunction (ext : h.Extends base) (f : Closure) : (h.newFunction f).2.Extends base :=
  ⟨ext.kept, ext.size, ext.stringMethods, ext.within.tables, ext.within.cells⟩

theorem newCell (ext : h.Extends base) {v : Value} (value : v.Within base.Shows) :
    (h.newCell v).2.Extends base where
  kept := ext.kept
  size := ext.size
  stringMethods := ext.stringMethods
  within := by
    refine ⟨ext.within.tables, fun w member => ?_⟩
    rcases Array.mem_push.1 member with old | new
    · exact ext.within.cells w old
    · exact new ▸ value

theorem setCell (ext : h.Extends base) (c : CellId) {v : Value} (value : v.Within base.Shows) :
    (h.setCell c v).Extends base where
  kept := ext.kept
  size := ext.size
  stringMethods := ext.stringMethods
  within := by
    refine ⟨ext.within.tables, fun w member => ?_⟩
    rcases Array.mem_or_eq_of_mem_setIfInBounds member with old | new
    · exact ext.within.cells w old
    · exact new ▸ value

theorem modifyTable (ext : h.Extends base) {id : TableId} (fresh : base.tables.size ≤ id)
    {f : Table → Table} (change : ∀ t : Table, t.Within base.Shows → (f t).Within base.Shows) :
    (h.modifyTable id f).Extends base where
  -- Only tables that the call has made are ever changed.
  kept other bound := by
    have differs : id ≠ other := Nat.ne_of_gt (Nat.lt_of_lt_of_le bound fresh)
    simpa [Heap.modifyTable, Array.getElem?_modify, differs] using ext.kept other bound
  size := by simpa [Heap.modifyTable] using ext.size
  stringMethods := ext.stringMethods
  within := ext.within.modifyTable change id

theorem rawSet (ext : h.Extends base) {id : TableId} (fresh : base.tables.size ≤ id) {k : Key}
    {v : Value} (key : k.Within base.Shows) (value : v.Within base.Shows) :
    (h.rawSet id k v).Extends base :=
  ext.modifyTable fresh fun _ table => table.set key value

theorem restrict (ext : h.Extends base) (functions : base.functions = #[])
    (cells : base.cells = #[]) : h.restrict base = base := by
  -- What the call has made is dropped with it, and then the heap is what it was.
  have tables : h.tables.take base.tables.size = base.tables := by
    apply Array.ext_getElem?
    intro id
    by_cases bound : id < base.tables.size
    · have inside : id < min base.tables.size h.tables.size :=
        Nat.lt_min.2 ⟨bound, Nat.lt_of_lt_of_le bound ext.size⟩
      rw [← ext.kept id bound]
      simp [Array.take_eq_extract, inside]
    · rw [Array.getElem?_eq_none (by simp; omega), Array.getElem?_eq_none (by omega)]
  cases base
  simp_all [Heap.restrict, ext.stringMethods]

end Extends

end CallGuard.Lua.Heap
