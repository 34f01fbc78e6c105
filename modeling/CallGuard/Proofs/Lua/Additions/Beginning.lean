import CallGuard.Proofs.Lua.Additions.Pairing
import CallGuard.Proofs.Lua.Views.Beginning

set_option autoImplicit false

namespace CallGuard.Lua

namespace State.Addition

variable {s s' : State} {further : String → Prop} (c : s.Addition s' further)

theorem own_fits {env : Nat} {v : Value} (own : v.Own c.size env) : v.Fits (c.pairing env) := by
  cases v with
  | table id =>
    have below := c.names_lt
    have low : c.size ≤ id := own.1
    exact ⟨by omega, Nat.ne_of_lt own.2⟩
  | native _ => exact own.elim
  | _ => trivial

theorem leads_fits {env : Nat} (later : c.size ≤ env) {t : Table}
    (leads : t.Leads (s.heap.ViewAt fun _ => True) (s.heap.SourceAt c.names fun _ => True)) :
    t.Fits (c.pairing env) := by
  refine ⟨leads.entries.mono fun v inside => c.fits_leads later inside, ?_⟩
  rcases leads.handlers with none | ⟨source, support, same, bound, other, -⟩
  · exact none ▸ no_handlers_fit
  · have mirrored : (c.pairing env).Mirrored source :=
      ⟨other, Nat.ne_of_lt (Nat.lt_of_lt_of_le bound later)⟩
    rw [same]
    constructor <;> (intro n found; cases found; first | exact mirrored | trivial)

theorem globals_begin {env : Nat} {entries : Table} (tidy : entries.Tidy 0)
    (tidy' : (entries.rename c.move).Tidy 0) (own : entries.Holds (Value.Own c.size env)) :
    Table.SameGlobals c.move (Value.Fits (c.shown env)) s.names s'.names further
      (s.globals entries) (s'.globals (entries.rename c.move)) := by
  refine ⟨⟨rfl, rfl⟩, ⟨rfl, rfl⟩, ⟨s.globals_tidy tidy, s'.globals_tidy tidy'⟩,
    fun n _ => ⟨?_, Table.get_rename c.grows.moved.injective entries (.named n)⟩⟩
  have held : (entries.get (.named n)).Own c.size env := own.get trivial _
  exact c.own_fits held

theorem later (x : Context) : c.size ≤ s.globalsAt x :=
  (bindings_shifted c.grows.moved.shift x).1.grown

theorem globalsAt_more (x : Context) : s'.globalsAt x = s.globalsAt x + c.more := by
  have sizes := (bindings_shifted c.grows.moved.shift x).1.size
  have wider := c.size_more
  unfold globalsAt size at *
  omega

theorem mirrored_begin (x : Context) (id : Nat)
    (mirrored : (c.pairing (s.globalsAt x)).Mirrored id) :
    (∃ t : Table, t.Fits (c.pairing (s.globalsAt x)) ∧ (s.heapOf x).tables[id]? = some t ∧
      (s'.heapOf x).tables[c.move id]? = some (t.rename c.move)) ∨
    (s.heapOf x).tables[id]? = none ∧ (s'.heapOf x).tables[c.move id]? = none := by
  obtain ⟨notNames, notGlobals⟩ := mirrored
  obtain ⟨shifted, -⟩ := bindings_shifted c.grows.moved.shift x
  have later := c.later x
  have place := c.globalsAt_more x
  have wider := c.size_more
  have sizes := shifted.size
  have left : (s.heapOf x).tables[id]? = (bindings x s.heap).2.tables[id]? :=
    (s.opened_table _ _ id).trans (if_neg notGlobals)
  have right : (s'.heapOf x).tables[c.move id]? = (bindings x s'.heap).2.tables[c.move id]? := by
    refine (s'.opened_table _ _ (c.move id)).trans (if_neg ?_)
    have moved := c.grows.moved.injective.ne notGlobals
    rw [c.move_new later, ← place] at moved
    exact moved
  rw [left, right]
  by_cases old : id < c.size
  · have found : s.heap.tables[id]? = some s.heap.tables[id] := Array.getElem?_eq_getElem old
    have bound := c.grows.move_lt old
    have there := c.grows.moved.tables id notNames
    rw [found] at there
    exact .inl ⟨_, c.leads_fits later (c.grows.left.tables id _ found notNames trivial),
      (shifted.old id old).trans found, (shifted.old' _ bound).trans there⟩
  · have new : c.size ≤ id := Nat.le_of_not_lt old
    by_cases inside : id < s.globalsAt x
    · obtain ⟨i, rfl⟩ := Nat.exists_eq_add_of_le new
      obtain ⟨t, entries, handlers, here, there⟩ := shifted.made i inside
      have fits : t.Fits (c.pairing (s.globalsAt x)) :=
        ⟨entries.mono fun v own => c.own_fits own, handlers ▸ no_handlers_fit⟩
      refine .inl ⟨t, fits, here, ?_⟩
      exact (congrArg (fun id : Nat => (bindings x s'.heap).2.tables[id]?)
        (c.grows.moved.shift i)).trans there
    · have beyond := c.move_new new
      unfold globalsAt at *
      exact .inr ⟨Array.getElem?_eq_none (by omega), Array.getElem?_eq_none (by omega)⟩

theorem beside_begin (x : Context) :
    c.Beside (s.globalsAt x) (s.heapOf x).tables (s'.heapOf x).tables := by
  obtain ⟨shifted, own, -, tidy, renamed⟩ := bindings_shifted c.grows.moved.shift x
  have later := c.later x
  have place := c.globalsAt_more x
  have below := c.names_lt
  have wider := c.size_more
  have globals := c.globals_begin tidy (renamed ▸ (tableOf_get _).1) own
  rw [← renamed] at globals
  have early : c.names ≠ s.globalsAt x ∧ c.names ≠ s'.globalsAt x := by omega
  refine ⟨⟨?_, ?_⟩, _, _, ?_, ?_, globals⟩
  · exact ((s.opened_table _ _ _).trans (if_neg early.1)).trans (shifted.old _ below)
  · exact ((s'.opened_table _ _ _).trans (if_neg early.2)).trans
      (shifted.old' _ c.grows.right.names_lt)
  · exact (s.opened_table _ _ _).trans (if_pos rfl)
  · rw [← place]
    exact (s'.opened_table _ _ _).trans (if_pos rfl)

theorem alike_begin (sealed : s.Sealed) (sealed' : s'.Sealed) (x : Context) :
    (c.pairing (s.globalsAt x)).Alike (s.heapOf x) (s'.heapOf x) := by
  have later := c.later x
  have place : (c.move (s.globalsAt x) : Nat) = s'.globalsAt x :=
    (c.move_new later).trans (c.globalsAt_more x).symm
  have size (s : State) : (s.heapOf x).tables.size = s.globalsAt x + 1 := Array.size_push ..
  have cells {s : State} (sealed : s.Sealed) :
      (s.heapOf x).cells = #[.table (s.globalsAt x)] := by
    show (bindings x s.heap).2.cells.push (.table _) = _
    rw [bindings_kept, sealed.heap.cells]
    rfl
  have functions {s : State} (sealed : s.Sealed) : (s.heapOf x).functions = #[] := by
    show (bindings x s.heap).2.functions = _
    rw [bindings_kept, sealed.heap.functions]
  have strings (s : State) : (s.heapOf x).stringMethods = s.heap.stringMethods := by
    show (bindings x s.heap).2.stringMethods = _
    rw [bindings_kept]
  obtain ⟨bound, other, -⟩ := c.grows.left.strings
  refine .begin (c.mirrored_begin x) (size s).symm ?_ (c.beside_begin x)
    ⟨functions sealed, functions sealed'⟩ rfl ⟨cells sealed, (cells sealed').trans ?_⟩ ?_
  · rw [size, size, c.globalsAt_more x]
    show _ = _ + c.more
    omega
  · exact congrArg (fun id => #[Value.table id]) place.symm
  · rw [strings, strings]
    exact ⟨⟨other, Nat.ne_of_lt (Nat.lt_of_lt_of_le bound later)⟩, c.grows.moved.strings⟩

end State.Addition

end CallGuard.Lua
