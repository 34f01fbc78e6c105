import CallGuard.Proofs.Lua.Views.Constants
import Mathlib.Data.List.Sort

set_option autoImplicit false

namespace CallGuard.Lua

variable {P Q : Nat → Prop} {move first second : Nat → Nat}

theorem Value.Leads.rename_congr {v : Value} (leads : v.Leads P)
    (same : ∀ id, P id → first id = second id) : v.rename first = v.rename second := by
  cases v with
  | table id => exact congrArg Value.table (same id leads)
  | native n => cases n <;> first | rfl | exact leads.elim
  | _ => rfl

theorem Table.Leads.rename_congr {t : Table} (leads : t.Leads P Q)
    (values : ∀ id, P id → first id = second id) (sources : ∀ id, Q id → first id = second id) :
    t.rename first = t.rename second := by
  refine Table.rename_congr ?_ (leads.entries.mono fun v inside => inside.rename_congr values)
  rcases leads.handlers with none | ⟨source, support, same, inside⟩
  · rw [none]
    rfl
  · rw [same]
    simp [Table.view, Handlers.rename, Native.rename, sources source inside]

theorem Table.view_rename (source : TableId) (support : Support) :
    (Table.view source support).rename move = .view (move source) support := by
  simp [Table.view, Table.rename, Handlers.rename, Native.rename]

namespace Heap

theorem Global.rename_congr {h : Heap} {k : Key} {v : Value} (global : h.Global P k v)
    (same : ∀ id, h.ViewAt P id → first id = second id) : v.rename first = v.rename second := by
  rcases global with leads | ⟨-, rfl⟩
  · exact leads.rename_congr same
  · rfl

theorem Orderly.global {h : Heap} {names : Nat} {free : Key → Prop}
    (orderly : h.Orderly names P free) {k : Key} (held : ¬ free k) :
    h.Global P k (h.rawGet names k) := by
  obtain ⟨t, found, -, -, entries⟩ := orderly.named
  rw [rawGet_eq found]
  exact entries k held

-- The two tables of global names need not be the same.
structure Moved (names : Nat) (move : Nat → Nat) (h h' : Heap) : Prop where
  injective : Function.Injective move
  fixed : move names = names
  wider : h.tables.size ≤ h'.tables.size
  shift : ∀ i, move (h.tables.size + i) = h'.tables.size + i
  tables : ∀ id, id ≠ names → h'.tables[move id]? = h.tables[id]?.map (Table.rename move)
  strings : h'.stringMethods = move h.stringMethods

namespace Moved

variable {names : Nat} {h h' : Heap} (moved : Moved names move h h')

include moved

theorem next : move h.tables.size = h'.tables.size := moved.shift 0

theorem newTable (t : Table) :
    Moved names move (h.newTable t).2 (h'.newTable (t.rename move)).2 := by
  refine ⟨moved.injective, moved.fixed, ?_, fun i => ?_, fun id other => ?_, moved.strings⟩
  · rw [newTable_size, newTable_size]
    exact Nat.succ_le_succ moved.wider
  · have shift := moved.shift (1 + i)
    rwa [newTable_size, newTable_size, Nat.add_assoc, Nat.add_assoc]
  · have same : move id = h'.tables.size ↔ id = h.tables.size := by
      rw [← moved.next, moved.injective.eq_iff]
    rw [newTable_table, newTable_table, moved.tables id other]
    by_cases last : id = h.tables.size
    · rw [if_pos last, if_pos (same.2 last)]
      rfl
    · rw [if_neg last, if_neg fun there => last (same.1 there)]

theorem newSource (t : Table) (support : Support) :
    Moved names move ((h.newTable t).2.newView h.tables.size support).2
        ((h'.newTable (t.rename move)).2.newView h'.tables.size support).2 ∧
      Value.table ((h'.newTable (t.rename move)).2.newView h'.tables.size support).1 =
        (Value.table ((h.newTable t).2.newView h.tables.size support).1).rename move := by
  have source := moved.newTable t
  have view := source.newTable (.view h.tables.size support)
  rw [Table.view_rename, moved.next] at view
  exact ⟨view, congrArg Value.table source.next.symm⟩

omit moved in
theorem setText (moved : Moved names move h h') (name : String) (v v' : Value) :
    Moved names move (h.setText names name v) (h'.setText names name v') := by
  refine ⟨moved.injective, moved.fixed, ?_, fun i => ?_, fun id other => ?_, moved.strings⟩
  · rw [setText_size, setText_size]
    exact moved.wider
  · rw [setText_size, setText_size]
    exact moved.shift i
  · have differs : move id ≠ names := fun same =>
      other (moved.injective (same.trans moved.fixed.symm))
    rw [setText_table h name v other, setText_table h' name v' differs]
    exact moved.tables id other

theorem rawGet {id : Nat} (other : id ≠ names) (k : Key) :
    h'.rawGet (move id) (k.rename move) = (h.rawGet id k).rename move := by
  have table : h'.tables.getD (move id) .empty = (h.tables.getD id .empty).rename move := by
    rw [Array.getD_eq_getD_getElem?, Array.getD_eq_getD_getElem?, moved.tables id other]
    cases h.tables[id]? with
    | none => exact Table.empty_rename.symm
    | some t => rfl
  rw [Heap.rawGet, table, Table.get_rename moved.injective]
  rfl

end Moved

variable {names : Nat}

mutual

theorem moved_viewOfJson (support : Support) : ∀ (j : Json) {h h' : Heap}, Moved names move h h' →
    Moved names move (h.viewOfJson support j).2 (h'.viewOfJson support j).2 ∧
      (h'.viewOfJson support j).1 = (h.viewOfJson support j).1.rename move
  | .null, h, h', moved => by
    rw [viewOfJson, viewOfJson]
    exact ⟨moved, rfl⟩
  | .bool b, h, h', moved => by
    rw [viewOfJson, viewOfJson]
    exact ⟨moved, rfl⟩
  | .num n, h, h', moved => by
    rw [viewOfJson, viewOfJson]
    exact ⟨moved, (Value.ofNumber_rename move n).symm⟩
  | .str s, h, h', moved => by
    rw [viewOfJson, viewOfJson]
    exact ⟨moved, rfl⟩
  | .arr items, h, h', moved => by
    obtain ⟨made, same⟩ := moved_viewItems support items 1 .empty moved
    rw [Table.empty_rename] at made same
    rw [viewOfJson, viewOfJson]
    simp only [same]
    exact made.newSource _ support
  | .obj fields, h, h', moved => by
    obtain ⟨made, same⟩ := moved_viewFields support fields .empty moved
    rw [Table.empty_rename] at made same
    rw [viewOfJson, viewOfJson]
    simp only [same]
    exact made.newSource _ support

theorem moved_viewItems (support : Support) : ∀ (js : List Json) (i : Nat) (t : Table)
    {h h' : Heap}, Moved names move h h' →
    Moved names move (h.viewItems support i t js).2
        (h'.viewItems support i (t.rename move) js).2 ∧
      (h'.viewItems support i (t.rename move) js).1 =
        (h.viewItems support i t js).1.rename move
  | [], i, t, h, h', moved => by
    rw [viewItems, viewItems]
    exact ⟨moved, rfl⟩
  | j :: js, i, t, h, h', moved => by
    obtain ⟨made, same⟩ := moved_viewOfJson support j moved
    rw [viewItems, viewItems]
    simp only [same, Table.setInt_rename]
    exact moved_viewItems support js (i + 1) _ made

theorem moved_viewFields (support : Support) : ∀ (fields : List (String × Json)) (t : Table)
    {h h' : Heap}, Moved names move h h' →
    Moved names move (h.viewFields support t fields).2
        (h'.viewFields support (t.rename move) fields).2 ∧
      (h'.viewFields support (t.rename move) fields).1 =
        (h.viewFields support t fields).1.rename move
  | [], t, h, h', moved => by
    rw [viewFields, viewFields]
    exact ⟨moved, rfl⟩
  | (name, j) :: fields, t, h, h', moved => by
    obtain ⟨made, same⟩ := moved_viewOfJson support j moved
    rw [viewFields, viewFields]
    simp only [same, Table.setText_rename]
    exact moved_viewFields support fields _ made

end

structure Enlarges (names : Nat) (further : String → Prop) (move : Nat → Nat) (h h' : Heap) :
    Prop where
  moved : Moved names move h h'
  left : h.Orderly names (fun _ => True) fun _ => False
  right : h'.Orderly names (fun _ => True) fun _ => False
  entries : ∀ n, ¬ further n →
    h'.rawGet names (.named n) = (h.rawGet names (.named n)).rename move

namespace Enlarges

variable {further : String → Prop} {h h' : Heap} (grows : Enlarges names further move h h')

include grows

theorem move_lt {id : Nat} (bound : id < h.tables.size) : move id < h'.tables.size := by
  by_cases same : id = names
  · rw [same, grows.moved.fixed]
    exact grows.right.names_lt
  · have found := grows.moved.tables id same
    rw [Array.getElem?_eq_getElem bound] at found
    exact (Array.getElem?_eq_some_iff.1 found).1

omit grows in
theorem refl (orderly : h.Orderly names (fun _ => True) fun _ => False) :
    Enlarges names further id h h := by
  refine ⟨⟨fun _ _ same => same, rfl, Nat.le_refl _, fun _ => rfl, fun i _ => ?_, rfl⟩, orderly,
    orderly, fun n _ => (Value.rename_id _).symm⟩
  have same : Table.rename id = id := funext Table.rename_id
  rw [same, Option.map_id]
  rfl

theorem insert {g : Heap} {name : String} {v : Value} (new : further name)
    (right : g.Orderly names (fun _ => True) fun _ => False)
    (value : v.Leads (g.ViewAt fun _ => True)) (size : h'.tables.size ≤ g.tables.size)
    (old : ∀ id < h'.tables.size, g.tables[id]? = h'.tables[id]?)
    (strings : g.stringMethods = h'.stringMethods) :
    ∃ move', Enlarges names further move' h (g.setText names name v) := by
  have lt : ∀ id, id < h.tables.size → move id < h'.tables.size := fun id => grows.move_lt
  have place := grows.right.names_lt
  obtain ⟨⟨injective, fixed, wider, -, tables, methods⟩, left, -, entries⟩ := grows
  let apart (id : Nat) : Nat :=
    if id < h.tables.size then move id else id - h.tables.size + g.tables.size
  have kept : ∀ id, id < h.tables.size → apart id = move id := fun id bound => if_pos bound
  have values : ∀ id, h.ViewAt (fun _ => True) id → move id = apart id := fun id view =>
    (kept id view.1.lt_size).symm
  have sources : ∀ id, h.SourceAt names (fun _ => True) id → move id = apart id :=
    fun id source => (kept id source.1).symm
  have below := left.names_lt
  refine ⟨apart, ⟨fun a b same => ?_, (kept _ below).trans fixed, ?_, fun i => ?_,
    fun id other => ?_, ?_⟩, left, right.setText name (.inr (.inl value)), fun n other => ?_⟩
  · simp only [apart] at same
    have aLt := lt a
    have bLt := lt b
    split at same <;> split at same
    · exact injective same
    · omega
    · omega
    · omega
  · rw [setText_size]
    exact Nat.le_trans wider size
  · simp only [apart, setText_size]
    rw [if_neg (by omega)]
    omega
  · have differs : apart id ≠ names := by
      by_cases bound : id < h.tables.size
      · rw [kept id bound, ← fixed]
        exact injective.ne other
      · simp only [apart, if_neg bound]
        omega
    rw [setText_table g name v differs]
    by_cases bound : id < h.tables.size
    · rw [kept id bound, old _ (lt id bound), tables id other, Array.getElem?_eq_getElem bound]
      have leads := left.tables id _ (Array.getElem?_eq_getElem bound) other trivial
      exact congrArg some (leads.rename_congr values sources)
    · rw [Array.getElem?_eq_none (Nat.le_of_not_lt bound), Array.getElem?_eq_none]
      · rfl
      · simp only [apart, if_neg bound]
        omega
  · exact (strings.trans methods).trans (kept _ left.strings.1).symm
  · have others : Key.named n ≠ .named name := fun same =>
      other (Key.named_injective same ▸ new)
    rw [right.rawGet_setText, if_neg others, rawGet_congr (old _ place)]
    exact (entries n other).trans ((left.global not_false).rename_congr values)

theorem setText (name : String) {v : Value} (value : v.Leads (h.ViewAt fun _ => True))
    (value' : (v.rename move).Leads (h'.ViewAt fun _ => True)) :
    Enlarges names further move (h.setText names name v)
      (h'.setText names name (v.rename move)) := by
  refine ⟨grows.moved.setText name _ _, grows.left.setText name (.inr (.inl value)),
    grows.right.setText name (.inr (.inl value')), fun n other => ?_⟩
  rw [grows.left.rawGet_setText, grows.right.rawGet_setText]
  split
  · rfl
  · exact grows.entries n other

end Enlarges

end Heap

namespace Builtins

def Further (builtins more : Keyed Json) (name : String) : Prop :=
  more.contains name = true ∧ builtins.contains name = false

-- None under a name that the views and reports look up when they run.
structure Extended (builtins more : Keyed Json) : Prop where
  included : ∀ name j, builtins.get? name = some j → more.get? name = some j
  support : support more = support builtins
  globals : more.contains globalsName = true → builtins.contains globalsName = true

variable {builtins more : Keyed Json}

namespace Extended

variable (extended : Extended builtins more)

include extended

theorem get? {name : String} (held : builtins.contains name = true) :
    more.get? name = builtins.get? name := by
  obtain ⟨j, found⟩ := Option.isSome_iff_exists.1 held
  rw [found, extended.included name j found]

theorem contains {name : String} (held : builtins.contains name = true) :
    more.contains name = true := by
  rw [Keyed.contains, extended.get? held]
  exact held

theorem get?_globals : more.get? globalsName = builtins.get? globalsName := by
  by_cases held : builtins.contains globalsName = true
  · exact extended.get? held
  · have absent : builtins.get? globalsName = none := Option.not_isSome_iff_eq_none.1 held
    have absent' : more.get? globalsName = none :=
      Option.not_isSome_iff_eq_none.1 fun other => held (extended.globals other)
    rw [absent, absent']

theorem constant {name : String} (held : builtins.contains name = true) (h : Heap) :
    State.constant more name h = State.constant builtins name h := by
  simp only [State.constant, found, extended.get?_globals, extended.get? held, extended.support]

theorem keys : builtins.keys = more.keys.filter builtins.contains := by
  refine builtins.keys_ordered.eq_of_mem_iff (more.keys_ordered.filter _) fun name => ?_
  rw [List.mem_filter, ← builtins.get?_isSome_iff, ← more.get?_isSome_iff]
  exact ⟨fun held => ⟨extended.contains held, held⟩, And.right⟩

end Extended

end Builtins

namespace State

open Heap

variable {builtins more : Keyed Json} {names : Nat} {h h' : Heap}

theorem constant_strings (builtins : Keyed Json) (name : String) (h : Heap) :
    (constant builtins name h).2.stringMethods = h.stringMethods := by
  unfold constant
  split
  · rfl
  · split
    · next j _ =>
      obtain ⟨n, -, copied, -⟩ : CopiedValue False (Builtins.support builtins) h h 0
          (h.viewOfJson (Builtins.support builtins) j) (h.ofJson j) :=
        copied_ofJson j nofun (copied_none h h)
      rw [copied.views]
    · rfl

theorem moved_constant (builtins : Keyed Json) (name : String)
    (orderly : h.Orderly names (fun _ => True) fun _ => False) (moved : Moved names move h h') :
    Moved names move (constant builtins name h).2 (constant builtins name h').2 ∧
      (constant builtins name h').1 = (constant builtins name h).1.rename move := by
  unfold constant
  split
  · refine ⟨moved, ?_⟩
    rw [moved.strings]
    exact moved.rawGet orderly.strings.2.1 (.string (.ofText name))
  · split
    · exact moved_viewOfJson _ _ moved
    · exact ⟨moved, rfl⟩

variable {further : String → Prop}

theorem grows_both (builtins : Keyed Json) (name : String)
    (grows : Enlarges names further move h h') :
    Enlarges names further move
      ((constant builtins name h).2.setText names name (constant builtins name h).1)
      ((constant builtins name h').2.setText names name (constant builtins name h').1) := by
  obtain ⟨left, value, -, old⟩ := constant_kept builtins name grows.left fun _ _ => trivial
  obtain ⟨right, value', -, old'⟩ := constant_kept builtins name grows.right fun _ _ => trivial
  obtain ⟨moved, same⟩ := moved_constant builtins name grows.left grows.moved
  rw [same] at value' ⊢
  refine Enlarges.setText ⟨moved, left, right, fun n other => ?_⟩ name value value'
  rw [rawGet_congr (old _ grows.left.names_lt), rawGet_congr (old' _ grows.right.names_lt)]
  exact grows.entries n other

theorem grows_further (builtins : Keyed Json) {name : String} (new : further name)
    (grows : Enlarges names further move h h') :
    ∃ move', Enlarges names further move' h
      ((constant builtins name h').2.setText names name (constant builtins name h').1) := by
  obtain ⟨right, value, size, old⟩ := constant_kept builtins name grows.right fun _ _ => trivial
  exact grows.insert new right value size old (constant_strings builtins name h')

theorem addConstants_grows (extended : Builtins.Extended builtins more) (keys : List String)
    (all : ∀ name ∈ keys, more.contains name = true)
    (grows : Enlarges names (Builtins.Further builtins more) move h h') :
    ∃ move', Enlarges names (Builtins.Further builtins more) move'
      (addConstants builtins names (keys.filter builtins.contains) h)
      (addConstants more names keys h') := by
  induction keys generalizing h h' move with
  | nil => exact ⟨move, grows⟩
  | cons name rest ih =>
    obtain ⟨here, later⟩ := List.forall_mem_cons.1 all
    by_cases held : builtins.contains name = true
    · rw [List.filter_cons_of_pos held, addConstants, addConstants, extended.constant held]
      exact ih later (grows_both builtins name grows)
    · rw [List.filter_cons_of_neg held, addConstants]
      have new : Builtins.Further builtins more name := ⟨here, Bool.eq_false_iff.2 held⟩
      obtain ⟨move', grown⟩ := grows_further more new grows
      exact ih later grown

structure Addition (s s' : State) (further : String → Prop) where
  names : Nat
  move : Nat → Nat
  optional : List String
  optional' : List String
  support : Support
  lookup : s.names = .lookup names optional support
  lookup' : s'.names = .lookup names optional' support
  isOptional : ∀ name, ¬ further name → (name ∈ optional' ↔ name ∈ optional)
  grows : s.heap.Enlarges names further move s'.heap
  random : s'.random = s.random

theorem ofBuiltins_addition {s s' : State} (started : ofBuiltins builtins = .ok s)
    (started' : ofBuiltins more = .ok s') (extended : Builtins.Extended builtins more) :
    Nonempty (s.Addition s' (Builtins.Further builtins more)) := by
  have keys := extended.keys
  have same := extended.support
  obtain ⟨move, grows⟩ := addConstants_grows extended more.keys
    (fun name member => (more.get?_isSome_iff name).2 member)
    (Enlarges.refl (standard_orderly (Builtins.support builtins)))
  rw [← keys] at grows
  rw [(started_of_ok started).made, (started_of_ok started').made, same]
  refine ⟨⟨6, move, _, _, _, rfl, rfl, fun name other => ?_, grows, rfl⟩⟩
  rw [List.mem_append, List.mem_append, ← builtins.get?_isSome_iff, ← more.get?_isSome_iff]
  refine or_congr_right ⟨fun listed => ?_, fun held => extended.contains held⟩
  by_contra absent
  exact other ⟨listed, Bool.eq_false_iff.2 absent⟩

end State

end CallGuard.Lua
