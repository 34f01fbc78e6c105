import CallGuard.Proofs.Lua.Accesses
import CallGuard.Proofs.Lua.Paired.Execution

set_option autoImplicit false

namespace CallGuard.Lua

structure Table.SameGlobals (move : TableId → TableId) (V : Value → Prop) (n n' : Native)
    (free : String → Prop) (t t' : Table) : Prop where
  index : t.handlers.index = some n ∧ t'.handlers.index = some n'
  newIndex : t.handlers.newIndex = none ∧ t'.handlers.newIndex = none
  tidy : t.Tidy 0 ∧ t'.Tidy 0
  others : ∀ m, ¬ free m →
    V (t.get (.named m)) ∧ t'.get (.named m) = (t.get (.named m)).rename move

theorem Table.Tidy.setNamed {t : Table} (tidy : t.Tidy 0) (name : String) (v : Value) :
    (t.set (.named name) v).Tidy 0 ∧
      ∀ k, (t.set (.named name) v).get k = if k = .named name then v else t.get k :=
  tidy.set (k := .named name) (by decide) (fun _ same => Key.noConfusion same) v

namespace Table.SameGlobals

variable {move : TableId → TableId} {V : Value → Prop} {n n' : Native} {free : String → Prop}
  {t t' : Table} (globals : SameGlobals move V n n' free t t')

include globals

theorem set (name : String) {v : Value} (value : V v) :
    SameGlobals move V n n' free (t.set (.named name) v)
      (t'.set (.named name) (v.rename move)) := by
  obtain ⟨tidy, law⟩ := globals.tidy.1.setNamed name v
  obtain ⟨tidy', law'⟩ := globals.tidy.2.setNamed name (v.rename move)
  refine ⟨?_, ?_, ⟨tidy, tidy'⟩, fun m other => ?_⟩
  · rw [Table.set_handlers, Table.set_handlers]
    exact globals.index
  · rw [Table.set_handlers, Table.set_handlers]
    exact globals.newIndex
  · rw [law, law']
    split
    · exact ⟨value, rfl⟩
    · exact globals.others m other

end Table.SameGlobals

theorem Library.undeclared_rename (move : TableId → TableId) (support : Support) (n : String) :
    (undeclared support n).rename move = undeclared support n := by
  unfold undeclared
  split <;> rfl

namespace Pairing.Alike

variable {p : Pairing} {h h' : Heap}

theorem modifyBeside (alike : p.Alike h h') (injective : Function.Injective p.move) {id : TableId}
    (other : ¬ p.Mirrored id) {f f' : Table → Table}
    (beside : p.Beside (h.tables.modify id f) (h'.tables.modify (p.move id) f')) :
    p.Alike (h.modifyTable id f) (h'.modifyTable (p.move id) f') := by
  refine { alike with mirrored := ?_, fits := ?_, fresh := ?_, size := ?_, beside := beside }
  · intro place mirrored
    have differs : id ≠ place := fun same => other (same ▸ mirrored)
    simp only [Heap.modifyTable, Array.getElem?_modify, if_neg differs,
      if_neg (injective.ne differs)]
    exact alike.mirrored place mirrored
  · intro place mirrored t found
    simp only [Heap.modifyTable, Array.getElem?_modify] at found
    rw [if_neg fun same : id = place => other (same ▸ mirrored)] at found
    exact alike.fits place mirrored t found
  · simpa [Heap.modifyTable] using alike.fresh
  · simpa [Heap.modifyTable] using alike.size

theorem paired_assign (alike : p.Alike h h') (injective : Function.Injective p.move)
    (other : ¬ p.Mirrored p.env) {t t' : Table} (here : h.tables[p.env]? = some t)
    (there : h'.tables[p.move p.env]? = some t')
    (newIndex : t.handlers.newIndex = none ∧ t'.handlers.newIndex = none)
    {n : String} {v : Value} (site : CallSite)
    (beside : p.Beside (h.tables.modify p.env (·.set (.named n) v))
      (h'.tables.modify (p.move p.env) (·.set (.named n) (v.rename p.move))))
    {K K' : Unit → Heap → Turn} (next : ∀ g g', p.Alike g g' → (K () g).Paired p (K' () g')) :
    ((Value.table p.env).setIndex (.text n) v site K h).Paired p
      ((Value.table (p.move p.env)).setIndex (.text n) (v.rename p.move) site K' h') := by
  rw [Value.setIndex_apply, Value.setIndex_apply, Heap.handlers_eq here, Heap.handlers_eq there,
    newIndex.1, newIndex.2]
  exact next _ _ (alike.modifyBeside injective other beside)

theorem begin (mirrored : ∀ id, p.Mirrored id →
      (∃ t : Table, t.Fits p ∧ h.tables[id]? = some t ∧
        h'.tables[p.move id]? = some (t.rename p.move)) ∨
      h.tables[id]? = none ∧ h'.tables[p.move id]? = none)
    (fresh : p.fresh = h.tables.size) (size : h'.tables.size = h.tables.size + p.more)
    (beside : p.Beside h.tables h'.tables)
    (functions : h.functions = #[] ∧ h'.functions = #[]) (envCell : p.envCell = 0)
    (cells : h.cells = #[.table p.env] ∧ h'.cells = #[.table (p.move p.env)])
    (strings : p.Mirrored h.stringMethods ∧ h'.stringMethods = p.move h.stringMethods) :
    p.Alike h h' := by
  obtain ⟨functions, functions'⟩ := functions
  obtain ⟨cells, cells'⟩ := cells
  have cell (g : Heap) (v : Value) (only : g.cells = #[v]) (i : CellId) :
      g.cell i = if i = 0 then v else .nil := by
    unfold Heap.cell
    rw [only]
    cases i <;> rfl
  constructor
  · intro id inside
    rcases mirrored id inside with ⟨t, -, here, there⟩ | ⟨here, there⟩
    · rw [here, there]
      rfl
    · rw [here, there]
      rfl
  · intro id inside t found
    rcases mirrored id inside with ⟨u, fits, here, -⟩ | ⟨here, -⟩
    · rw [here] at found
      cases found
      exact fits
    · rw [here] at found
      cases found
  · exact Nat.le_of_eq fresh
  · exact size
  · exact beside
  · rw [functions, functions']
  · simp [functions]
  · rw [cells, cells']
    rfl
  · intro i other
    rw [envCell] at other
    rw [cell h _ cells, cell h' _ cells', if_neg other, if_neg other]
    exact ⟨trivial, rfl⟩
  · rw [cells, envCell]
    exact Nat.zero_lt_one
  · rw [envCell]
    exact ⟨cell h _ cells 0, cell h' _ cells' 0⟩
  · exact strings

theorem paired_chunk (alike : p.Alike h h') (lawful : p.Lawful) (envCell : p.envCell = 0)
    {chunk : Chunk} (said : p.Speaks (Block.mentions chunk)) :
    ((execBlock ⟨[], [(environmentName, 0)], []⟩ chunk).run h).Paired p
      ((execBlock ⟨[], [(environmentName, 0)], []⟩ chunk).run h') := by
  have scope : Scope.Fits p ⟨[], [(environmentName, 0)], []⟩ := by
    refine ⟨List.forall_mem_nil _, fun b member => ?_, no_values_fit⟩
    rw [List.mem_singleton.1 member, envCell]
    exact iff_of_true rfl rfl
  exact (paired_body lawful scope said).run alike

end Pairing.Alike

end CallGuard.Lua
