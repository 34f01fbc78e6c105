import CallGuard.Proofs.Lua.Accesses
import CallGuard.Proofs.Lua.Startup
import CallGuard.Proofs.Lua.Views.Documents

set_option autoImplicit false

namespace CallGuard.Lua

variable {P Q R S : Nat → Prop}

def Native.Simple : Native → Prop
  | .base f => f ≠ .pairs
  | .string _ => True
  | .table _ => True
  | .math _ => True
  | _ => False

def Value.Leads (P : Nat → Prop) : Value → Prop
  | .table id => P id
  | .native n => n.Simple
  | _ => True

theorem Value.Leads.mono {v : Value} (leads : v.Leads P) (wider : ∀ id, P id → Q id) :
    v.Leads Q := by
  cases v with
  | table id => exact wider id leads
  | native n => exact leads
  | _ => trivial

theorem admits_leads : Value.Admits (Value.Leads P) := ⟨trivial, fun _ => trivial⟩

structure Table.Leads (P Q : Nat → Prop) (t : Table) : Prop where
  entries : t.Holds (Value.Leads P)
  handlers : t.handlers = .none ∨
    ∃ source support, t.handlers = (Table.view source support).handlers ∧ Q source

theorem Table.Leads.mono {t : Table} (leads : t.Leads P Q) (values : ∀ id, P id → R id)
    (sources : ∀ id, Q id → S id) : t.Leads R S := by
  refine ⟨leads.entries.mono fun v value => value.mono values, leads.handlers.imp_right ?_⟩
  rintro ⟨source, support, same, inside⟩
  exact ⟨source, support, same, sources source inside⟩

theorem Table.view_leads {source : TableId} (inside : Q source) (support : Support) :
    (Table.view source support).Leads P Q :=
  ⟨Table.nothing_holds rfl rfl, .inr ⟨source, support, rfl, inside⟩⟩

namespace Heap

variable {g h : Heap} {names : Nat} {free : Key → Prop}

def ViewAt (P : Nat → Prop) (h : Heap) (id : Nat) : Prop := h.IsView id ∧ P id

def SourceAt (names : Nat) (P : Nat → Prop) (h : Heap) (id : Nat) : Prop :=
  id < h.tables.size ∧ id ≠ names ∧ P id

def Global (P : Nat → Prop) (h : Heap) (k : Key) (v : Value) : Prop :=
  v.Leads (h.ViewAt P) ∨ k = .named "pairs" ∧ v = .native (.base .pairs)

structure Orderly (names : Nat) (P : Nat → Prop) (free : Key → Prop) (h : Heap) :
    Prop where
  tables : ∀ id t, h.tables[id]? = some t → id ≠ names → P id →
    t.Leads (h.ViewAt P) (h.SourceAt names P)
  named : ∃ t, h.tables[names]? = some t ∧ t.handlers = .none ∧ t.Tidy 0 ∧
    ∀ k, ¬ free k → h.Global P k (t.get k)
  strings : h.SourceAt names P h.stringMethods

theorem setText_table (h : Heap) {names : Nat} (name : String) (v : Value) {id : TableId}
    (other : id ≠ names) : (h.setText names name v).tables[id]? = h.tables[id]? := by
  simp [Heap.setText, Heap.rawSet, Heap.modifyTable, Array.getElem?_modify, other.symm]

theorem setText_size (h : Heap) (names : Nat) (name : String) (v : Value) :
    (h.setText names name v).tables.size = h.tables.size := by
  simp [Heap.setText, Heap.rawSet, Heap.modifyTable]

theorem setText_self {t : Table} (found : h.tables[names]? = some t) (name : String) (v : Value) :
    (h.setText names name v).tables[names]? = some (t.set (.named name) v) := by
  simp [Heap.setText, Heap.rawSet, Heap.modifyTable, Array.getElem?_modify, found, Key.named]

namespace Orderly

variable (orderly : h.Orderly names P free)

include orderly

theorem names_lt : names < h.tables.size := by
  obtain ⟨t, found, -⟩ := orderly.named
  exact (Array.getElem?_eq_some_iff.1 found).1

theorem extend (old : ∀ id < h.tables.size, g.tables[id]? = h.tables[id]?)
    (size : h.tables.size ≤ g.tables.size) (strings : g.stringMethods = h.stringMethods)
    (new : ∀ id t, h.tables.size ≤ id → g.tables[id]? = some t → P id →
      t.Leads (g.ViewAt P) (g.SourceAt names P)) :
    g.Orderly names P free := by
  have views : ∀ id, h.ViewAt P id → g.ViewAt P id := by
    rintro id ⟨view, inside⟩
    obtain ⟨source, support, found⟩ := view
    have bound := IsView.lt_size ⟨source, support, found⟩
    exact ⟨⟨source, support, (old id bound).trans found⟩, inside⟩
  have sources : ∀ id, h.SourceAt names P id → g.SourceAt names P id := fun id inside =>
    ⟨Nat.lt_of_lt_of_le inside.1 size, inside.2⟩
  refine ⟨fun id t found other inside => ?_, ?_, strings ▸ sources _ orderly.strings⟩
  · by_cases bound : id < h.tables.size
    · rw [old id bound] at found
      exact (orderly.tables id t found other inside).mono views sources
    · exact new id t (Nat.le_of_not_lt bound) found inside
  · obtain ⟨t, found, handlers, tidy, entries⟩ := orderly.named
    refine ⟨t, (old names orderly.names_lt).trans found, handlers, tidy, fun k bound => ?_⟩
    exact (entries k bound).imp_left fun leads => leads.mono views

omit orderly in
theorem mono (orderly : h.Orderly names P free) {free' : Key → Prop}
    (more : ∀ k, free k → free' k) : h.Orderly names P free' := by
  obtain ⟨t, found, handlers, tidy, entries⟩ := orderly.named
  exact ⟨orderly.tables, ⟨t, found, handlers, tidy, fun k bound =>
    entries k fun already => bound (more k already)⟩, orderly.strings⟩

theorem narrow (inside : ∀ id < h.tables.size, P id → Q id) (within : ∀ id, Q id → P id) :
    h.Orderly names Q free := by
  have views : ∀ id, h.ViewAt P id → h.ViewAt Q id := fun id view =>
    ⟨view.1, inside id view.1.lt_size view.2⟩
  have sources : ∀ id, h.SourceAt names P id → h.SourceAt names Q id := fun id source =>
    ⟨source.1, source.2.1, inside id source.1 source.2.2⟩
  refine ⟨fun id t found other here => ?_, ?_, sources _ orderly.strings⟩
  · exact (orderly.tables id t found other (within id here)).mono views sources
  · obtain ⟨t, found, handlers, tidy, entries⟩ := orderly.named
    exact ⟨t, found, handlers, tidy, fun k bound =>
      (entries k bound).imp_left fun leads => leads.mono views⟩

theorem plain : h.IsPlain names := by
  obtain ⟨t, found, handlers, -⟩ := orderly.named
  exact ⟨t, found, by rw [handlers]; rfl⟩

theorem rawGet_setText (name : String) (v : Value) (k : Key) :
    (h.setText names name v).rawGet names k =
      if k = .named name then v else h.rawGet names k := by
  obtain ⟨t, found, -, tidy, -⟩ := orderly.named
  have set := setText_self found name v
  rw [rawGet_eq set, rawGet_eq found]
  have text : ∀ i, Key.named name ≠ .int i := fun i same => by cases same
  exact (tidy.set (k := .named name) (by decide) (fun i same => absurd same (text i)) v).2 k

theorem setText (name : String) {v : Value}
    (value : free (.named name) ∨ h.Global P (.named name) v) :
    (h.setText names name v).Orderly names P free := by
  have views : ∀ id, h.ViewAt P id → (h.setText names name v).ViewAt P id :=
    fun id view => ⟨orderly.plain.views_setText name v id view.1, view.2⟩
  have size := h.setText_size names name v
  have sources : ∀ id, h.SourceAt names P id → (h.setText names name v).SourceAt names P id :=
    fun id source => ⟨size ▸ source.1, source.2⟩
  refine ⟨fun id t found other inside => ?_, ?_, sources _ orderly.strings⟩
  · rw [setText_table h name v other] at found
    exact (orderly.tables id t found other inside).mono views sources
  · obtain ⟨t, found, handlers, tidy, entries⟩ := orderly.named
    obtain ⟨kept, law⟩ := tidy.set (k := .named name) (by decide) nofun v
    refine ⟨t.set (.named name) v, setText_self found name v, ?_, kept, fun k bound => ?_⟩
    · rw [Table.set_handlers, handlers]
    · rw [law]
      split
      · next same =>
        subst same
        exact (value.resolve_left bound).imp_left fun leads => leads.mono views
      · exact (entries k bound).imp_left fun leads => leads.mono views

end Orderly

def Stands (h : Heap) (support : Support) (start count : Nat) : Prop :=
  ∀ i < count, ∃ t : Table, t.Holds (Value.Viewed start count) ∧ t.handlers = .none ∧
    t.Distinct ∧ t.items.size < 2 ^ 63 ∧ (∀ bits, t.get (.float bits) = .nil) ∧
    h.tables[start + 2 * i]? = some t ∧
    h.tables[start + 2 * i + 1]? = some (.view (start + 2 * i) support)

theorem Copied.stands {sized : Prop} {support : Support} {g₀ h₀ : Heap} {n : Nat}
    (copied : Copied sized support g₀ h₀ n g h) (small : sized) :
    g.Stands support g₀.tables.size n := by
  intro i bound
  obtain ⟨t, limit, document, source, view, -⟩ := copied.made i bound
  obtain ⟨narrow, tidy, floats⟩ := document.tidy small
  have size := tidy.size
  unfold Json.longest at narrow
  exact ⟨t, document.entries, document.handlers, tidy.distinct, by omega, floats, source, view⟩

theorem Orderly.viewOfJson (orderly : h.Orderly names P free)
    (all : ∀ id : Nat, h.tables.size ≤ id → P id) (support : Support) (j : Json) :
    (h.viewOfJson support j).2.Orderly names P free ∧
      (h.viewOfJson support j).1.Leads ((h.viewOfJson support j).2.ViewAt P) ∧
      h.tables.size ≤ (h.viewOfJson support j).2.tables.size ∧
      ∀ id < h.tables.size, (h.viewOfJson support j).2.tables[id]? = h.tables[id]? := by
  have both : CopiedValue False support h h 0 (h.viewOfJson support j) (h.ofJson j) :=
    copied_ofJson j nofun (copied_none h h)
  obtain ⟨n, -, copied, value, -⟩ := both
  generalize h.viewOfJson support j = made at *
  have size := copied.size
  have lt := orderly.names_lt
  have views : ∀ i < n, made.2.IsView (h.tables.size + 2 * i + 1) := fun i bound => by
    obtain ⟨t, limit, -, -, view, -⟩ := copied.made i bound
    exact ⟨_, _, view⟩
  have leads : ∀ v : Value, v.Viewed h.tables.size n →
      v.Leads (made.2.ViewAt P) := by
    intro v viewed
    cases v with
    | table id =>
      obtain ⟨i, bound, rfl⟩ := viewed
      exact ⟨views i bound, all _ (by omega)⟩
    | native _ => exact viewed.elim
    | _ => trivial
  refine ⟨orderly.extend copied.old (by omega) (by rw [copied.views]) ?_, leads _ value,
    by omega, copied.old⟩
  intro id t beyond found inside
  have bound := (Array.getElem?_eq_some_iff.1 found).1
  obtain ⟨i, place⟩ : ∃ i : Nat, id = h.tables.size + 2 * i ∨ id = h.tables.size + 2 * i + 1 :=
    ⟨(id - h.tables.size) / 2, by omega⟩
  obtain ⟨u, limit, document, source, view, -⟩ := copied.made i (by omega)
  rcases place with rfl | rfl
  · rw [source] at found
    cases found
    exact ⟨document.entries.mono leads, .inl document.handlers⟩
  · rw [view] at found
    cases found
    refine Table.view_leads ?_ support
    exact ⟨by omega, by omega, all _ (by omega)⟩

end Heap

namespace State

variable {builtins : Keyed Json} {names : Nat} {free : Key → Prop}

theorem tableOf_get (entries : List (String × Value)) :
    (tableOf entries).Tidy 0 ∧ ∀ k, (tableOf entries).get k = .nil ∨
      ∃ e ∈ entries, k = .named e.1 ∧ (tableOf entries).get k = e.2 := by
  refine List.foldlRecOn (motive := fun t : Table => t.Tidy 0 ∧
    ∀ k, t.get k = .nil ∨ ∃ e ∈ entries, k = .named e.1 ∧ t.get k = e.2) entries _ ?_ ?_
  · exact ⟨Table.empty_tidy 0, fun k => .inl (Table.empty_get k)⟩
  · rintro t ⟨tidy, entry⟩ e member
    obtain ⟨kept, law⟩ := tidy.set (k := .named e.1) (by decide) nofun e.2
    refine ⟨kept, fun k => ?_⟩
    by_cases same : k = .named e.1
    · exact .inr ⟨e, member, same, (law k).trans (if_pos same)⟩
    · have other : (t.set (.named e.1) e.2).get k = t.get k := (law k).trans (if_neg same)
      exact other ▸ entry k

theorem tableOf_holds {V : Value → Prop} (admits : Value.Admits V)
    (texts : ∀ text, V (.string text)) {entries : List (String × Value)}
    (values : ∀ e ∈ entries, V e.2) : (tableOf entries).Holds V := by
  refine List.foldlRecOn (motive := Table.Holds V) entries _ (Table.nothing_holds rfl rfl) ?_
  exact fun t holds e member => holds.set admits (texts _) (values e member)

theorem tableOf_leads {entries : List (String × Value)} (leads : ∀ e ∈ entries, e.2.Leads P) :
    (tableOf entries).Leads P Q :=
  ⟨tableOf_holds admits_leads (fun _ => trivial) leads, .inl (tableOf_handlers entries)⟩

theorem natives_lead {α : Type} (table : List (String × α)) (native : α → Native)
    (simple : ∀ f, (native f).Simple) :
    ∀ e ∈ table.map fun (name, f) => (name, Value.native (native f)), e.2.Leads P := by
  intro e member
  obtain ⟨⟨name, f⟩, -, rfl⟩ := List.mem_map.1 member
  exact simple f

theorem standard_orderly (support : Support) :
    ((standard support .empty).2.newTable
      (tableOf (standard support .empty).1)).2.Orderly 6 (fun _ => True) fun _ => False := by
  generalize made : ((standard support .empty).2.newTable
    (tableOf (standard support .empty).1)).2 = h
  have tables : h.tables = #[stringTable, tableTable, mathTable, .view 0 support,
      .view 1 support, .view 2 support, tableOf (standard support .empty).1] := by
    rw [← made]
    rfl
  have strings : h.stringMethods = 0 := by rw [← made]; rfl
  have views : ∀ source : Nat, source < 3 → h.ViewAt (fun _ => True) (source + 3) := by
    intro source bound
    refine ⟨⟨source, support, ?_⟩, trivial⟩
    rw [tables]
    match source, bound with
    | 0, _ => rfl
    | 1, _ => rfl
    | 2, _ => rfl
  have size : h.tables.size = 7 := by rw [tables]; rfl
  have sources : ∀ source : Nat, source < 3 → h.SourceAt 6 (fun _ => True) source :=
    fun source bound => ⟨by omega, by omega, trivial⟩
  refine ⟨fun id t found other _ => ?_, ?_, strings ▸ sources 0 (by decide)⟩
  · have bound := size ▸ (Array.getElem?_eq_some_iff.1 found).1
    rw [tables] at found
    match id, found, bound with
    | 0, found, _ =>
      have same : stringTable = t := Option.some.inj found
      exact same ▸ tableOf_leads (natives_lead _ _ fun _ => trivial)
    | 1, found, _ =>
      have same : tableTable = t := Option.some.inj found
      exact same ▸ tableOf_leads (natives_lead _ _ fun _ => trivial)
    | 2, found, _ =>
      have same : mathTable = t := Option.some.inj found
      refine same ▸ tableOf_leads (List.forall_mem_append.2 ⟨natives_lead _ _ fun _ => trivial, ?_⟩)
      simp [Library.numberConstants, Value.Leads]
    | 3, found, _ => exact Option.some.inj found ▸ Table.view_leads (sources 0 (by decide)) support
    | 4, found, _ => exact Option.some.inj found ▸ Table.view_leads (sources 1 (by decide)) support
    | 5, found, _ => exact Option.some.inj found ▸ Table.view_leads (sources 2 (by decide)) support
    | 6, _, _ => exact absurd rfl other
  · obtain ⟨tidy, entries⟩ := tableOf_get (standard support .empty).1
    refine ⟨tableOf (standard support .empty).1, by rw [tables]; rfl, tableOf_handlers _, tidy,
      fun k _ => ?_⟩
    rcases entries k with nil | ⟨e, member, rfl, value⟩
    · rw [nil]
      exact .inl trivial
    · rw [value]
      rcases List.mem_append.1 member with base | library
      · obtain ⟨⟨name, f⟩, listed, rfl⟩ := List.mem_map.1 base
        by_cases loops : f = .pairs
        · subst loops
          have named : name = "pairs" := by simpa [BaseFunction.names] using listed
          exact .inr ⟨congrArg Key.named named, rfl⟩
        · exact .inl loops
      · simp only [List.mem_cons, List.not_mem_nil, or_false] at library
        rcases library with rfl | rfl | rfl
        · exact .inl (views 0 (by decide))
        · exact .inl (views 1 (by decide))
        · exact .inl (views 2 (by decide))

theorem constant_eq (globals : builtins.get? Builtins.globalsName = none) (name : String)
    (h : Heap) : constant builtins name h =
      match builtins.get? name with
      | some j => h.viewOfJson (Builtins.support builtins) j
      | none => (.nil, h) := by
  unfold constant Builtins.found
  generalize builtins.get? Builtins.globalsName = found at globals
  subst globals
  rfl

theorem constant_kept (builtins : Keyed Json) (name : String) {h : Heap}
    (orderly : h.Orderly names P free) (all : ∀ id : Nat, h.tables.size ≤ id → P id) :
    (constant builtins name h).2.Orderly names P free ∧
      (constant builtins name h).1.Leads ((constant builtins name h).2.ViewAt P) ∧
      h.tables.size ≤ (constant builtins name h).2.tables.size ∧
      ∀ id < h.tables.size, (constant builtins name h).2.tables[id]? = h.tables[id]? := by
  unfold constant
  split
  · obtain ⟨bound, other, inside⟩ := orderly.strings
    have found : h.tables[h.stringMethods]? = some h.tables[h.stringMethods] :=
      Array.getElem?_eq_getElem bound
    have method : (h.rawGet h.stringMethods (.string (.ofText name))).Leads (h.ViewAt P) := by
      rw [Heap.rawGet_eq found]
      exact (orderly.tables _ _ found other inside).entries.get trivial _
    exact ⟨orderly, method, Nat.le_refl _, fun _ _ => rfl⟩
  · split
    · exact orderly.viewOfJson all _ _
    · exact ⟨orderly, trivial, Nat.le_refl _, fun _ _ => rfl⟩

theorem addConstants_kept (builtins : Keyed Json) (keys : List String) {h : Heap}
    (orderly : h.Orderly names P free) (all : ∀ id : Nat, h.tables.size ≤ id → P id) :
    (addConstants builtins names keys h).Orderly names P free ∧
      h.tables.size ≤ (addConstants builtins names keys h).tables.size ∧
      (∀ id < h.tables.size, id ≠ names →
        (addConstants builtins names keys h).tables[id]? = h.tables[id]?) ∧
      ∀ k, (∀ name ∈ keys, k ≠ .named name) →
        (addConstants builtins names keys h).rawGet names k = h.rawGet names k := by
  induction keys generalizing h with
  | nil => exact ⟨orderly, Nat.le_refl _, fun _ _ _ => rfl, fun _ _ => rfl⟩
  | cons name rest ih =>
    obtain ⟨orderly', leads, size, old⟩ := constant_kept builtins name orderly all
    have entered := orderly'.setText name (.inr (.inl leads))
    have same := Heap.setText_size (constant builtins name h).2 names name
      (constant builtins name h).1
    obtain ⟨last, further, kept, entries⟩ := ih entered fun id beyond => all id (by omega)
    have step : addConstants builtins names (name :: rest) h =
        addConstants builtins names rest
          ((constant builtins name h).2.setText names name (constant builtins name h).1) := rfl
    rw [step]
    refine ⟨last, by omega, fun id bound other => ?_, fun k others => ?_⟩
    · rw [kept id (by omega) other, Heap.setText_table _ name _ other, old id bound]
    · obtain ⟨differs, others⟩ := List.forall_mem_cons.1 others
      rw [entries k others, orderly'.rawGet_setText, if_neg differs]
      exact Heap.rawGet_congr (old names orderly.names_lt) k

def isOutside (start count id : Nat) : Prop := id < start ∨ start + 2 * count ≤ id

-- In the place of each view, a copy of the table behind it.
structure Placement (s : State) (name : String) (j : Json) where
  names : Nat
  optional : List String
  support : Support
  start : Nat
  count : Nat
  lookup : s.names = .lookup names optional support
  canStep : support.canStep = true
  isOptional : name ∈ optional
  below : names < start
  room : start + 2 * count ≤ s.heap.tables.size
  orderly : s.heap.Orderly names (isOutside start count) (· = .named name)
  stands : s.heap.Stands support start count
  viewed : (s.heap.rawGet names (.named name)).Viewed start count
  copy : ∀ h : Heap, (h.ofJson j).2 = { h with tables := (h.ofJson j).2.tables } ∧
    (h.ofJson j).2.tables.size = h.tables.size + count ∧
    (∀ id < h.tables.size, (h.ofJson j).2.tables[id]? = h.tables[id]?) ∧
    (∀ i < count, (h.ofJson j).2.tables[h.tables.size + i]? =
      s.heap.tables[start + 2 * i]?.map (Table.rename (unwrap start h.tables.size))) ∧
    (h.ofJson j).1 = (s.heap.rawGet names (.named name)).rename (unwrap start h.tables.size)

theorem addConstants_append (builtins : Keyed Json) (names : TableId) (keys more : List String)
    (h : Heap) : addConstants builtins names (keys ++ more) h =
      addConstants builtins names more (addConstants builtins names keys h) := by
  induction keys generalizing h with
  | nil => rfl
  | cons name rest ih => exact ih _

theorem keys_split {name : String} {j : Json} (found : builtins.get? name = some j) :
    ∃ before after, builtins.keys = before ++ name :: after ∧ name ∉ after := by
  have member : name ∈ builtins.keys := (builtins.get?_isSome_iff name).1 (by rw [found]; rfl)
  obtain ⟨before, after, keys⟩ := List.append_of_mem member
  have ordered := builtins.keys_ordered
  rw [keys] at ordered
  have later := (List.pairwise_cons.1 (List.pairwise_append.1 ordered).2.1).1
  exact ⟨before, after, keys, fun again => String.lt_irrefl name (later name again)⟩

theorem addConstants_placement {s : State} {name : String} {j : Json} {support : Support}
    {optional : List String} {before after : List String} {h : Heap}
    (made : s.heap = addConstants builtins names (before ++ name :: after) h)
    (lookup : s.names = .lookup names optional support) (canStep : support.canStep = true)
    (isOptional : name ∈ optional) (orderly : h.Orderly names (fun _ => True) fun _ => False)
    (found : builtins.get? name = some j) (globals : builtins.get? Builtins.globalsName = none)
    (same : Builtins.support builtins = support) (fresh : name ∉ after) (narrow : j.isNarrow) :
    Nonempty (s.Placement name j) := by
  obtain ⟨orderly, -⟩ := addConstants_kept builtins before orderly fun _ _ => trivial
  rw [addConstants_append] at made
  generalize addConstants builtins names before h = h₁ at made orderly
  have value : constant builtins name h₁ = h₁.viewOfJson support j := by
    rw [constant_eq globals, found, same]
  have copied (h : Heap) :
      Heap.CopiedValue True support h₁ h 0 (h₁.viewOfJson support j) (h.ofJson j) :=
    Heap.copied_ofJson j (fun _ => narrow) (Heap.copied_none h₁ h)
  obtain ⟨count, -, first, viewed, -⟩ := copied h₁
  have step : s.heap = addConstants builtins names after
      ((h₁.viewOfJson support j).2.setText names name (h₁.viewOfJson support j).1) := by
    rw [made, ← value]
    rfl
  generalize h₁.viewOfJson support j = view at copied first viewed step
  have size := first.size
  have below := orderly.names_lt
  -- Nothing has been made yet where the constant will stand.
  have around : h₁.Orderly names (isOutside h₁.tables.size count) (· = .named name) :=
    (orderly.narrow (fun id bound _ => .inl bound) fun _ _ => trivial).mono fun _ none => none.elim
  have grown : view.2.Orderly names (isOutside h₁.tables.size count) (· = .named name) := by
    refine around.extend first.old (by omega) (by rw [first.views]) fun id t beyond there out => ?_
    have bound := (Array.getElem?_eq_some_iff.1 there).1
    unfold isOutside at out
    omega
  have entered := grown.setText name (v := view.1) (.inl rfl)
  have entry := grown.rawGet_setText name view.1 (.named name)
  have width := view.2.setText_size names name view.1
  obtain ⟨last, further, kept, entries⟩ :=
    addConstants_kept builtins after entered fun id beyond => .inr (by omega)
  rw [← step] at last further kept entries
  have unchanged : ∀ id : Nat, id < h₁.tables.size + 2 * count → id ≠ names →
      s.heap.tables[id]? = view.2.tables[id]? := fun id bound other => by
    rw [kept id (by omega) other, Heap.setText_table _ name _ other]
  have others : ∀ other ∈ after, Key.named name ≠ .named other := fun other member equal =>
    fresh (Key.named_injective equal ▸ member)
  have own : s.heap.rawGet names (.named name) = view.1 := by
    rw [entries _ others, entry, if_pos rfl]
  refine ⟨⟨names, optional, support, h₁.tables.size, count, lookup, canStep, isOptional, below,
    by omega, last, ?_, own ▸ viewed, fun h => ?_⟩⟩
  · intro i bound
    obtain ⟨t, entries, handlers, distinct, items, floats, source, shown⟩ :=
      first.stands trivial i bound
    refine ⟨t, entries, handlers, distinct, items, floats, ?_, ?_⟩
    · rw [unchanged _ (by omega) (by omega), source]
    · rw [unchanged _ (by omega) (by omega), shown]
  · obtain ⟨n, -, second, -, value⟩ := copied h
    have count : n = count := by
      have size := second.size
      omega
    subst count
    refine ⟨second.copies, second.sizeCopies, second.oldCopies, fun i bound => ?_, own ▸ value⟩
    obtain ⟨t, -, -, source, -, copy⟩ := second.made i bound
    rw [copy, unchanged _ (by omega) (by omega), source]
    rfl

theorem ofBuiltins_placement {s : State} {name : String} {j : Json}
    (started : ofBuiltins builtins = .ok s) (found : builtins.get? name = some j)
    (globals : builtins.get? Builtins.globalsName = none) (steps : builtins.get? "next" = none)
    (narrow : j.isNarrow) : Nonempty (s.Placement name j) := by
  obtain ⟨before, after, keys, fresh⟩ := keys_split found
  have canStep : (Builtins.support builtins).canStep = true := by
    simp [Builtins.support, Keyed.contains, steps]
  have isOptional : name ∈ Variable.all.map Variable.name ++ builtins.keys := by
    rw [keys]
    simp
  rw [(started_of_ok started).made]
  exact addConstants_placement (congrArg (addConstants builtins 6 · _) keys) rfl canStep
    isOptional (standard_orderly _) found globals rfl fresh narrow

end State

end CallGuard.Lua
