import CallGuard.Proofs.Lua.Paired.Pairing

set_option autoImplicit false

namespace CallGuard.Lua

open Routine

namespace Pairing

inductive Loops (p : Pairing) : List Value → List Value → Prop
  | same {vs : List Value} (fits : Values.Fits p vs) : Loops p vs (Values.rename p.move vs)
  | steps {f f' state : Value} (steps : p.Steps f f' state) (table : state.Fits p) :
    Loops p [f, state, .nil] [f', state.rename p.move, .nil]

structure Lawful (p : Pairing) : Prop where
  injective : Function.Injective p.move
  made : ∀ id : Nat, p.fresh ≤ id → p.move id = id + p.more ∧ p.Mirrored id ∧ p.Shows id
  besidePush : ∀ {ts ts' : Array Table}, p.Beside ts ts' → p.fresh ≤ ts.size →
    ts'.size = ts.size + p.more → ∀ t t', p.Beside (ts.push t) (ts'.push t')
  besideModify : ∀ {ts ts' : Array Table}, p.Beside ts ts' → ∀ id, p.Mirrored id → p.Shows id →
    ∀ f f', p.Beside (ts.modify id f) (ts'.modify (p.move id) f')
  named : ∀ m, p.Says m → m.name ≠ environmentName
  clear : ∀ {h h'}, p.Alike h h' → ∀ n args, n.Fits p → Values.Fits p args →
    ¬ p.Avoids n args h → n.Takes p args
  -- Tables that are not mirrored.
  index : ∀ id k site, p.Shows id → ¬ p.Mirrored id → k.Fits p →
    ((Value.table id).index k site).Paired p
      ((Value.table (p.move id)).index (k.rename p.move) site) p.ofValue
  setIndex : ∀ id k v site, p.Shows id → ¬ p.Mirrored id → k.Fits p → v.Fits p →
    ((Value.table id).setIndex k v site).Paired p
      ((Value.table (p.move id)).setIndex (k.rename p.move) (v.rename p.move) site) Eq
  length : ∀ id site, p.Shows id → ¬ p.Mirrored id →
    ((Value.table id).length site).Paired p ((Value.table (p.move id)).length site) p.ofValue
  -- Global variables.
  readGlobal : ∀ n site, p.Says ⟨n, .read⟩ →
    ((Value.table p.env).index (.text n) site).Paired p
      ((Value.table (p.move p.env)).index (.text n) site) p.ofValue
  readWalked : ∀ n site, p.Says ⟨n, .walked⟩ →
    ((Value.table p.env).index (.text n) site).Paired p
      ((Value.table (p.move p.env)).index (.text n) site)
      (Carried (Value.rename p.move) fun v => v.Fits p ∨ v = .native (.base .pairs))
  assignGlobal : ∀ n v site, p.Says ⟨n, .assigned⟩ → v.Fits p →
    ((Value.table p.env).setIndex (.text n) v site).Paired p
      ((Value.table (p.move p.env)).setIndex (.text n) (v.rename p.move) site) Eq
  -- Loops over tables.
  walk : ∀ id args site, Library.Args.value args 1 = .table id → ¬ p.Mirrored id →
    Values.Fits p args →
    (call (.native (.base .pairs)) args site).Paired p
      (call (.native (.base .pairs)) (Values.rename p.move args) site) p.Loops
  step : ∀ f f' state control site, p.Steps f f' state → state.Fits p → control.Fits p →
    (f.call [state, control] site).Paired p
      (f'.call [state.rename p.move, control.rename p.move] site) p.ofValues

end Pairing

variable {p : Pairing}

theorem Heap.cell_newCell (h : Heap) (v : Value) (c : CellId) :
    (h.newCell v).2.cell c = if c = h.cells.size then v else h.cell c := by
  simp only [Heap.cell, Heap.newCell, Array.getD_eq_getD_getElem?, Array.getElem?_push]
  split <;> rfl

theorem Heap.cell_setCell (h : Heap) (c : CellId) (v : Value) (d : CellId) :
    (h.setCell c v).cell d = if c = d ∧ c < h.cells.size then v else h.cell d := by
  simp only [Heap.cell, Heap.setCell, Array.getD_eq_getD_getElem?, Array.getElem?_setIfInBounds]
  by_cases same : c = d
  · subst same
    by_cases bound : c < h.cells.size
    · simp [bound]
    · simp [bound]
  · simp [same]

namespace Pairing.Alike

variable {h h' : Heap} (alike : p.Alike h h')

include alike

theorem table (id : TableId) (mirrored : p.Mirrored id) :
    (h.tables.getD id .empty).Fits p ∧
      h'.tables.getD (p.move id) .empty = (h.tables.getD id .empty).rename p.move := by
  rw [Array.getD_eq_getD_getElem?, Array.getD_eq_getD_getElem?, alike.mirrored id mirrored]
  cases found : h.tables[id]? with
  | none =>
    exact ⟨⟨Table.nothing_holds rfl rfl, no_handlers_fit⟩, by
      simp [Table.empty, Table.rename, Handlers.rename, Handlers.none]⟩
  | some t => exact ⟨alike.fits id mirrored t found, rfl⟩

theorem handlers (id : TableId) (mirrored : p.Mirrored id) :
    (h.handlers id).Fits p ∧ h'.handlers (p.move id) = (h.handlers id).rename p.move := by
  obtain ⟨fits, same⟩ := alike.table id mirrored
  exact ⟨fits.handlers, congrArg Table.handlers same⟩

theorem closure (id : FunctionId) : (h.functions.getD id default).Fits p := by
  have silent : (default : Closure).function.mentions = [] := by
    show Function.mentions (.mk [] false []) = []
    simp [Function.mentions, Block.mentions]
  have unknown : (default : Closure).Fits p :=
    ⟨silent ▸ List.forall_mem_nil p.Says, List.forall_mem_nil _⟩
  exact getD_of_forall alike.closures unknown id

theorem rawGet (lawful : p.Lawful) (id : TableId) (mirrored : p.Mirrored id) {k : Key} :
    (h.rawGet id k).Fits p ∧
      h'.rawGet (p.move id) (k.rename p.move) = (h.rawGet id k).rename p.move := by
  obtain ⟨fits, same⟩ := alike.table id mirrored
  refine ⟨fits.entries.get nil_fits k, ?_⟩
  rw [Heap.rawGet, same, Table.get_rename lawful.injective]
  rfl

theorem newTable (lawful : p.Lawful) {t : Table} (fits : t.Fits p) :
    p.Alike (h.newTable t).2 (h'.newTable (t.rename p.move)).2 := by
  have moved := lawful.made h.tables.size alike.fresh
  refine { alike with mirrored := ?_, fits := ?_, fresh := ?_, size := ?_, beside := ?_ }
  · intro id mirrored
    have same : h'.tables.size = p.move id ↔ h.tables.size = id := by
      rw [alike.size, ← moved.1, lawful.injective.eq_iff]
    simp only [Heap.newTable, Array.getElem?_push, eq_comm (b := h'.tables.size),
      eq_comm (b := h.tables.size), same]
    split
    · rfl
    · exact alike.mirrored id mirrored
  · intro id mirrored u found
    simp only [Heap.newTable, Array.getElem?_push] at found
    split at found
    · cases found
      exact fits
    · exact alike.fits id mirrored u found
  · have bound := alike.fresh
    simp only [Heap.newTable, Array.size_push]
    omega
  · have size := alike.size
    simp only [Heap.newTable, Array.size_push]
    omega
  · exact lawful.besidePush alike.beside alike.fresh alike.size _ _

theorem modifyTable (lawful : p.Lawful) {id : TableId} (mirrored : p.Mirrored id)
    (shows : p.Shows id) {f f' : Table → Table} (fits : ∀ t : Table, t.Fits p → (f t).Fits p)
    (same : ∀ t : Table, f' (t.rename p.move) = (f t).rename p.move) :
    p.Alike (h.modifyTable id f) (h'.modifyTable (p.move id) f') := by
  refine { alike with mirrored := ?_, fits := ?_, fresh := ?_, size := ?_, beside := ?_ }
  · intro other otherMirrored
    simp only [Heap.modifyTable, Array.getElem?_modify, lawful.injective.eq_iff,
      alike.mirrored other otherMirrored]
    split
    · cases h.tables[other]? with
      | none => rfl
      | some t => exact congrArg some (same t)
    · rfl
  · intro other otherMirrored t found
    simp only [Heap.modifyTable, Array.getElem?_modify] at found
    split at found
    · obtain ⟨u, old, rfl⟩ := Option.map_eq_some_iff.1 found
      exact fits u (alike.fits other otherMirrored u old)
    · exact alike.fits other otherMirrored t found
  · simpa [Heap.modifyTable] using alike.fresh
  · simpa [Heap.modifyTable] using alike.size
  · exact lawful.besideModify alike.beside id mirrored shows f f'

theorem newFunction {c : Closure} (fits : c.Fits p) :
    p.Alike (h.newFunction c).2 (h'.newFunction c).2 := by
  refine { alike with functions := ?_, closures := ?_ }
  · simp [Heap.newFunction, alike.functions]
  · intro d member
    rcases Array.mem_push.1 member with old | new
    · exact alike.closures d old
    · exact new ▸ fits

theorem newCell {v : Value} (fits : v.Fits p) :
    p.Alike (h.newCell v).2 (h'.newCell (v.rename p.move)).2 := by
  have old : p.envCell ≠ h.cells.size := Nat.ne_of_lt alike.envCell
  refine { alike with cellCount := ?_, cells := ?_, envCell := ?_, env := ?_ }
  · simp [Heap.newCell, alike.cellCount]
  · intro c other
    simp only [Heap.cell_newCell, alike.cellCount]
    split
    · exact ⟨fits, rfl⟩
    · exact alike.cells c other
  · simpa [Heap.newCell] using Nat.lt_succ_of_lt alike.envCell
  · simpa [Heap.cell_newCell, alike.cellCount, old] using alike.env

theorem setCell {c : CellId} (other : c ≠ p.envCell) {v : Value} (fits : v.Fits p) :
    p.Alike (h.setCell c v) (h'.setCell c (v.rename p.move)) := by
  refine { alike with cellCount := ?_, cells := ?_, envCell := ?_, env := ?_ }
  · simp [Heap.setCell, alike.cellCount]
  · intro d differs
    simp only [Heap.cell_setCell, alike.cellCount]
    split
    · exact ⟨fits, rfl⟩
    · exact alike.cells d differs
  · simpa [Heap.setCell] using alike.envCell
  · simpa [Heap.cell_setCell, other] using alike.env

end Pairing.Alike

theorem Routine.paired_native (lawful : p.Lawful) {n : Native} {args : List Value} (site : CallSite)
    (callee : n.Fits p) (fits : Values.Fits p args) :
    (call (.native n) args site).Paired p
      (call (.native (n.rename p.move)) (Values.rename p.move args) site) p.ofValues := by
  intro k k' h h' alike next
  by_cases avoided : p.Avoids n args h
  · exact .stray avoided
  · exact .native callee fits (lawful.clear alike n args callee fits avoided) alike
      fun vs g g' results => next vs _ g g' ⟨results, rfl⟩

end CallGuard.Lua
