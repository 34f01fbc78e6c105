import CallGuard.Lua.State
import CallGuard.Proofs.Lua.Machine

set_option autoImplicit false

namespace CallGuard.Lua

variable {P : TableId → Prop}

theorem Value.ofNumber_within (n : Json.Number) : (ofNumber n).Within P := by
  unfold ofNumber
  split
  · split <;> trivial
  · trivial

theorem State.tableOf_within {entries : List (String × Value)}
    (within : ∀ e ∈ entries, e.2.Within P) : (tableOf entries).Within P :=
  List.foldlRecOn (motive := Table.Within P) entries _ Table.empty_within
    fun _ kept e member => kept.setText e.1 (within e member)

namespace Heap

section

variable {base h : Heap}

structure Made {α : Type} (base : Heap) (within : α → Prop) (made : α × Heap) : Prop where
  value : within made.1
  ext : made.2.Extends base

theorem Extends.made_newTable (ext : h.Extends base) {t : Table} (table : t.Within base.Shows) :
    let (id, h) := h.newTable t
    Made base (Value.Within base.Shows) (.table id, h) :=
  ⟨Or.inl ext.size, ext.newTable table⟩

mutual

theorem made_ofJson {base : Heap} : ∀ (j : Json) {h : Heap}, h.Extends base →
    Made base (Value.Within base.Shows) (h.ofJson j)
  | .null, h, ext => by
    rw [ofJson]
    exact ⟨trivial, ext⟩
  | .bool b, h, ext => by
    rw [ofJson]
    exact ⟨trivial, ext⟩
  | .num n, h, ext => by
    rw [ofJson]
    exact ⟨Value.ofNumber_within n, ext⟩
  | .str s, h, ext => by
    rw [ofJson]
    exact ⟨trivial, ext⟩
  | .arr items, h, ext => by
    have made := made_ofItems items ext 1 Table.empty_within
    rw [ofJson]
    exact made.ext.made_newTable made.value
  | .obj fields, h, ext => by
    have made := made_ofFields fields ext Table.empty_within
    rw [ofJson]
    exact made.ext.made_newTable made.value

theorem made_ofItems {base : Heap} : ∀ (js : List Json) {h : Heap}, h.Extends base →
    ∀ (i : Nat) {t : Table}, t.Within base.Shows →
      Made base (Table.Within base.Shows) (h.ofItems i t js)
  | [], h, ext, i, t, table => by
    rw [ofItems]
    exact ⟨table, ext⟩
  | j :: js, h, ext, i, t, table => by
    have made := made_ofJson j ext
    rw [ofItems]
    exact made_ofItems js made.ext (i + 1) (table.setInt _ made.value)

theorem made_ofFields {base : Heap} : ∀ (fields : List (String × Json)) {h : Heap},
    h.Extends base → ∀ {t : Table}, t.Within base.Shows →
      Made base (Table.Within base.Shows) (h.ofFields t fields)
  | [], h, ext, t, table => by
    rw [ofFields]
    exact ⟨table, ext⟩
  | (name, j) :: fields, h, ext, t, table => by
    have made := made_ofJson j ext
    rw [ofFields]
    exact made_ofFields fields made.ext (table.setText name made.value)

end

end

variable {h : Heap}

structure Sealed (h : Heap) : Prop where
  within : h.Within h.IsView
  functions : h.functions = #[]
  cells : h.cells = #[]

theorem Sealed.extends (sealed : h.Sealed) : h.Extends h :=
  .refl ⟨fun t member => (sealed.within.tables t member).mono fun _ view => Or.inr view,
    fun v member => (sealed.within.cells v member).mono fun _ view => Or.inr view⟩

theorem empty_sealed : empty.Sealed :=
  ⟨⟨by simp [empty], by simp [empty]⟩, rfl, rfl⟩

structure Built {α : Type} (h : Heap) (within : (TableId → Prop) → α → Prop) (made : α × Heap) :
    Prop where
  value : within made.2.IsView made.1
  sealed : made.2.Sealed
  kept : ∀ (id : TableId) (t : Table), h.tables[id]? = some t → made.2.tables[id]? = some t

theorem Built.views {α : Type} {within : (TableId → Prop) → α → Prop} {made : α × Heap}
    (built : Built h within made) (id : TableId) (view : h.IsView id) : made.2.IsView id := by
  obtain ⟨source, support, found⟩ := view
  exact ⟨source, support, built.kept id _ found⟩

theorem newTable_kept (t : Table) (id : TableId) (u : Table) (found : h.tables[id]? = some u) :
    (h.newTable t).2.tables[id]? = some u := by
  have old := Nat.ne_of_lt (Array.getElem?_eq_some_iff.1 found).1
  simpa [Heap.newTable, Array.getElem?_push, old] using found

theorem Sealed.newTable (sealed : h.Sealed) {t : Table} (table : t.Within h.IsView) :
    (h.newTable t).2.Sealed := by
  have views : ∀ id, h.IsView id → (h.newTable t).2.IsView id := by
    rintro id ⟨source, support, found⟩
    exact ⟨source, support, newTable_kept t id _ found⟩
  have grown := sealed.within.newTable table
  exact ⟨⟨fun u member => (grown.tables u member).mono views,
    fun v member => (grown.cells v member).mono views⟩, sealed.functions, sealed.cells⟩

theorem built_newView (sealed : h.Sealed) (source : TableId) (support : Support) :
    Built h (fun P id => P id) (h.newView source support) where
  value := ⟨source, support, by simp [Heap.newView, Heap.newTable]⟩
  sealed := sealed.newTable (Table.view_within source support)
  kept := newTable_kept _

theorem Built.view {old : Heap} {t : Table} (built : Built old (fun P t => t.Within P) (t, h))
    (support : Support) :
    let (source, h) := h.newTable t
    let (view, h) := h.newView source support
    Built old (fun P v => v.Within P) (Value.table view, h) := by
  have shown := built_newView (built.sealed.newTable built.value) (h.newTable t).1 support
  exact ⟨shown.value, shown.sealed, fun id u found =>
    shown.kept id u (newTable_kept t id u (built.kept id u found))⟩

mutual

theorem built_viewOfJson (support : Support) : ∀ (j : Json) {h : Heap}, h.Sealed →
    Built h (fun P v => v.Within P) (h.viewOfJson support j)
  | .null, h, sealed => by
    rw [viewOfJson]
    exact ⟨trivial, sealed, fun _ _ found => found⟩
  | .bool b, h, sealed => by
    rw [viewOfJson]
    exact ⟨trivial, sealed, fun _ _ found => found⟩
  | .num n, h, sealed => by
    rw [viewOfJson]
    exact ⟨Value.ofNumber_within n, sealed, fun _ _ found => found⟩
  | .str s, h, sealed => by
    rw [viewOfJson]
    exact ⟨trivial, sealed, fun _ _ found => found⟩
  | .arr items, h, sealed => by
    have built := built_viewItems support items sealed 1 Table.empty_within
    rw [viewOfJson]
    exact built.view support
  | .obj fields, h, sealed => by
    have built := built_viewFields support fields sealed Table.empty_within
    rw [viewOfJson]
    exact built.view support

theorem built_viewItems (support : Support) : ∀ (js : List Json) {h : Heap}, h.Sealed →
    ∀ (i : Nat) {t : Table}, t.Within h.IsView →
      Built h (fun P t => t.Within P) (h.viewItems support i t js)
  | [], h, sealed, i, t, table => by
    rw [viewItems]
    exact ⟨table, sealed, fun _ _ found => found⟩
  | j :: js, h, sealed, i, t, table => by
    have head := built_viewOfJson support j sealed
    have rest := built_viewItems support js head.sealed (i + 1)
      ((table.mono head.views).setInt (.ofNat i) head.value)
    rw [viewItems]
    exact ⟨rest.value, rest.sealed, fun id u found => rest.kept id u (head.kept id u found)⟩

theorem built_viewFields (support : Support) : ∀ (fields : List (String × Json)) {h : Heap},
    h.Sealed → ∀ {t : Table}, t.Within h.IsView →
      Built h (fun P t => t.Within P) (h.viewFields support t fields)
  | [], h, sealed, t, table => by
    rw [viewFields]
    exact ⟨table, sealed, fun _ _ found => found⟩
  | (name, j) :: fields, h, sealed, t, table => by
    have head := built_viewOfJson support j sealed
    have rest := built_viewFields support fields head.sealed
      ((table.mono head.views).setText name head.value)
    rw [viewFields]
    exact ⟨rest.value, rest.sealed, fun id u found => rest.kept id u (head.kept id u found)⟩

end

end Heap

namespace Heap

variable {h : Heap}

def IsPlain (h : Heap) (id : TableId) : Prop :=
  ∃ t, h.tables[id]? = some t ∧ t.handlers.newIndex = none

theorem IsPlain.not_view {id : TableId} (plain : h.IsPlain id) : ¬ h.IsView id := by
  rintro ⟨source, support, view⟩
  obtain ⟨t, found, absent⟩ := plain
  rw [found] at view
  cases view
  simp [Table.view] at absent

theorem IsPlain.setText {id : TableId} (plain : h.IsPlain id) (name : String) (v : Value) :
    (h.setText id name v).IsPlain id := by
  obtain ⟨t, found, absent⟩ := plain
  exact ⟨t.set (.string (.ofText name)) v,
    by simp [Heap.setText, Heap.rawSet, Heap.modifyTable, Array.getElem?_modify, found],
    by rw [Table.set_handlers, absent]⟩

theorem IsPlain.views_setText {id : TableId} (plain : h.IsPlain id) (name : String) (v : Value)
    (other : TableId) (view : h.IsView other) : (h.setText id name v).IsView other := by
  -- a table that takes entries is no view, so it is another one that changes
  have differs : id ≠ other := fun same => plain.not_view (same ▸ view)
  obtain ⟨source, support, found⟩ := view
  exact ⟨source, support, by
    simpa [Heap.setText, Heap.rawSet, Heap.modifyTable, Array.getElem?_modify, differs] using found⟩

theorem Sealed.setText (sealed : h.Sealed) {id : TableId} (plain : h.IsPlain id) (name : String)
    {v : Value} (value : v.Within h.IsView) : (h.setText id name v).Sealed := by
  have views := plain.views_setText name v
  have changed : (h.setText id name v).Within h.IsView :=
    sealed.within.modifyTable (fun t table => table.setText name value) id
  exact ⟨⟨fun u member => (changed.tables u member).mono views,
    fun w member => (changed.cells w member).mono views⟩, sealed.functions, sealed.cells⟩

end Heap

namespace State

theorem built_constant (builtins : Keyed Json) (name : String) {h : Heap} (sealed : h.Sealed) :
    Heap.Built h (fun P v => v.Within P) (constant builtins name h) := by
  unfold constant
  split
  · have method := sealed.within.rawGet h.stringMethods (.string (.ofText name))
    exact ⟨method, sealed, fun _ _ found => found⟩
  · split
    · exact Heap.built_viewOfJson _ _ sealed
    · exact ⟨trivial, sealed, fun _ _ found => found⟩

theorem addConstants_sealed (builtins : Keyed Json) {names : TableId} (keys : List String)
    {h : Heap} (sealed : h.Sealed) (plain : h.IsPlain names) :
    (addConstants builtins names keys h).Sealed := by
  induction keys generalizing h with
  | nil => exact sealed
  | cons name rest ih =>
    have built := built_constant builtins name sealed
    obtain ⟨t, found, absent⟩ := plain
    have plain : (constant builtins name h).2.IsPlain names := ⟨t, built.kept _ _ found, absent⟩
    exact ih (built.sealed.setText plain name built.value) (plain.setText name _)

theorem tableOf_handlers (entries : List (String × Value)) :
    (tableOf entries).handlers = .none :=
  List.foldlRecOn (motive := fun t : Table => t.handlers = .none) entries _ rfl
    fun t none _ _ => (Table.set_handlers t _ _).trans none

theorem natives_within {α : Type} (names : List (String × α)) (native : α → Native)
    (within : ∀ f, (native f).Within P) :
    ∀ e ∈ names.map fun (name, f) => (name, Value.native (native f)), e.2.Within P := by
  intro e member
  obtain ⟨⟨name, f⟩, -, rfl⟩ := List.mem_map.1 member
  exact within f

theorem numberConstants_within : ∀ e ∈ Library.numberConstants, e.2.Within P := by
  simp [Library.numberConstants]

theorem standard_built (support : Support) :
    Heap.Built .empty (fun P entries => ∀ e ∈ entries, e.2.Within P)
      (standard support .empty) := by
  have strings : stringTable.Within Heap.empty.IsView :=
    tableOf_within (natives_within _ _ fun _ => trivial)
  have h₁ := Heap.empty_sealed.newTable strings
  have tables : tableTable.Within (Heap.empty.newTable stringTable).2.IsView :=
    tableOf_within (natives_within _ _ fun _ => trivial)
  have h₂ := h₁.newTable tables
  have maths :
      mathTable.Within ((Heap.empty.newTable stringTable).2.newTable tableTable).2.IsView :=
    tableOf_within (List.forall_mem_append.2
      ⟨natives_within _ _ fun _ => trivial, numberConstants_within⟩)
  have h₃ := h₂.newTable maths
  have stringView := Heap.built_newView h₃ (Heap.empty.newTable stringTable).1 support
  have tableView := Heap.built_newView stringView.sealed
    ((Heap.empty.newTable stringTable).2.newTable tableTable).1 support
  have mathView := Heap.built_newView tableView.sealed
    (((Heap.empty.newTable stringTable).2.newTable tableTable).2.newTable mathTable).1 support
  refine ⟨List.forall_mem_append.2 ⟨natives_within _ _ fun _ => trivial, ?_⟩, ?_, ?_⟩
  · simp only [List.forall_mem_cons]
    exact ⟨mathView.views _ (tableView.views _ stringView.value),
      mathView.views _ tableView.value, mathView.value, by simp⟩
  · exact ⟨⟨mathView.sealed.within.tables, mathView.sealed.within.cells⟩,
      mathView.sealed.functions, mathView.sealed.cells⟩
  · intro id t found
    simp [Heap.empty] at found

theorem checkName_of_all {keys : List String}
    (checked : keys.forM Builtins.checkName = .ok ()) {name : String} (member : name ∈ keys) :
    Builtins.checkName name = .ok () := by
  induction keys with
  | nil => cases member
  | cons first rest ih =>
    have step : (first :: rest).forM Builtins.checkName =
        (Builtins.checkName first >>= fun _ => rest.forM Builtins.checkName) := rfl
    rw [step] at checked
    cases here : Builtins.checkName first with
    | error e =>
      rw [here] at checked
      cases checked
    | ok =>
      rw [here] at checked
      rcases List.mem_cons.1 member with rfl | later
      · exact here
      · exact ih checked later

structure Started (builtins : Keyed Json) (s : State) : Prop where
  checked : builtins.keys.forM Builtins.checkName = .ok ()
  permitted : Builtins.permitStart builtins = true
  made : s = ⟨addConstants builtins 6 builtins.keys
      ((standard (Builtins.support builtins) .empty).2.newTable
        (tableOf (standard (Builtins.support builtins) .empty).1)).2,
    .lookup 6 (Variable.all.map Variable.name ++ builtins.keys) (Builtins.support builtins),
    .ofSeed 0 0⟩

theorem started_of_ok {builtins : Keyed Json} {s : State}
    (started : ofBuiltins builtins = .ok s) : Started builtins s := by
  unfold ofBuiltins at started
  cases checked : builtins.keys.forM Builtins.checkName with
  | error e => simp [checked, bind, Except.bind] at started
  | ok =>
    simp only [checked, bind, Except.bind] at started
    split at started
    · cases started
    · next permitted =>
      cases started
      exact ⟨checked, by simpa using permitted, rfl⟩

theorem Started.free {builtins : Keyed Json} {s : State} (started : Started builtins s)
    {name : String} (member : name ∈ builtins.keys) :
    Variable.isDeclared name = false ∧ name ≠ Builtins.containsName := by
  have checked := checkName_of_all started.checked member
  unfold Builtins.checkName at checked
  split at checked
  · cases checked
  · split at checked
    · cases checked
    · next unused => simpa using unused

structure Sealed (s : State) : Prop where
  heap : s.heap.Sealed
  names : ∀ P, s.names.Within P

theorem ofBuiltins_sealed {builtins : Keyed Json} {s : State}
    (started : ofBuiltins builtins = .ok s) : s.Sealed := by
  have built := standard_built (Builtins.support builtins)
  have names := tableOf_within built.value
  rw [(started_of_ok started).made]
  refine ⟨addConstants_sealed builtins _ (built.sealed.newTable names) ?_, fun _ => trivial⟩
  refine ⟨tableOf (standard (Builtins.support builtins) .empty).1, by simp [Heap.newTable]; rfl, ?_⟩
  rw [tableOf_handlers]
  rfl

variable {s : State}

theorem made_bindings (c : Context) {base h : Heap} (ext : h.Extends base) :
    Heap.Made base (Table.Within base.Shows) (bindings c h) := by
  have user := Heap.made_ofJson c.user ext
  have request := Heap.made_ofJson c.requestValue user.ext
  have entries :
      (tableOf (c.metadata.entries.map fun e => (e.1, .text e.2))).Within base.Shows := by
    refine tableOf_within fun e member => ?_
    obtain ⟨entry, -, rfl⟩ := List.mem_map.1 member
    trivial
  have metadata := request.ext.made_newTable entries
  refine ⟨tableOf_within ?_, metadata.ext⟩
  simp only [List.forall_mem_cons]
  exact ⟨user.value, request.value, metadata.value, trivial, trivial, by simp⟩

theorem start_contained (sealed : s.Sealed) (chunk : Chunk) (c : Context) :
    (s.start chunk c).Contained s.heap := by
  have bound := made_bindings c sealed.heap.extends
  have handlers : Handlers.Within s.heap.Shows { Handlers.none with index := some s.names } :=
    ⟨fun n is => Option.some.inj is ▸ sealed.names _, nofun, nofun, nofun⟩
  have table : Table.Within s.heap.Shows { (bindings c s.heap).1 with
      handlers := { Handlers.none with index := some s.names } } :=
    ⟨bound.value.items, bound.value.nodes, handlers⟩
  have env := bound.ext.made_newTable table
  refine Routine.Ensures.run (ensures_body ?_ chunk) (env.ext.newCell env.value)
  exact no_values_within

theorem run_eq (sealed : s.Sealed) (chunk : Chunk) (c : Context) (fuel : Nat) :
    ∃ ending left random, s.run chunk c fuel = (ending, left, { s with random := random }) ∧
      ending ≠ some .outOfMemory := by
  obtain ⟨⟨ending, left, random, h⟩, result⟩ :
      ∃ r, Machine.run fuel (.initial s.random) (s.start chunk c) = r := ⟨_, rfl⟩
  have kept := Machine.run_contained fuel (Machine.initial_contained s.random)
    (start_contained sealed chunk c) result
  refine ⟨ending, left, random, ?_, kept.1⟩
  simp only [run, result]
  rw [kept.2.restrict sealed.heap.functions sealed.heap.cells]

end State

end CallGuard.Lua
