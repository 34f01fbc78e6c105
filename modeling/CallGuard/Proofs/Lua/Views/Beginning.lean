import CallGuard.Proofs.Lua.Views.Globals

set_option autoImplicit false

namespace CallGuard.Lua

namespace State

def globals (s : State) (entries : Table) : Table :=
  { entries with handlers := { Handlers.none with index := some s.names } }

def opened (s : State) (entries : Table) (h : Heap) : Heap :=
  ((h.newTable (s.globals entries)).2.newCell (.table h.tables.size)).2

theorem opened_table (s : State) (entries : Table) (h : Heap) (id : TableId) :
    (s.opened entries h).tables[id]? =
      if id = h.tables.size then some (s.globals entries) else h.tables[id]? :=
  Array.getElem?_push ..

theorem globals_tidy (s : State) {entries : Table} (tidy : entries.Tidy 0) :
    (s.globals entries).Tidy 0 :=
  ⟨⟨tidy.distinct.keys, tidy.distinct.apart⟩, tidy.ints, tidy.size⟩

theorem bindings_kept (x : Context) (h : Heap) :
    (bindings x h).2 = { h with tables := (bindings x h).2.tables } := by
  have moved (i : Nat) : id (h.tables.size + i) = h.tables.size + i := rfl
  exact (bindings_shifted moved x).1.left

def globalsAt (s : State) (x : Context) : Nat := (bindings x s.heap).2.tables.size

def heapOf (s : State) (x : Context) : Heap :=
  s.opened (bindings x s.heap).1 (bindings x s.heap).2

theorem start_eq {s : State} (sealed : s.Sealed) (chunk : Chunk) (x : Context) :
    s.start chunk x = (execBlock ⟨[], [(environmentName, 0)], []⟩ chunk).run (s.heapOf x) := by
  have cells : (bindings x s.heap).2.cells = #[] := by
    rw [bindings_kept, sealed.heap.cells]
  show (execBlock ⟨[], [(environmentName, (bindings x s.heap).2.cells.size)], []⟩ chunk).run _ = _
  rw [cells]
  rfl

def heapWith (s : State) (name : String) (j : Json) (x : Context) : Heap :=
  let (v, h) := s.heap.ofJson j
  s.opened ((bindings x h).1.setText name v) (bindings x h).2

theorem bindings_undeclared {name : String} (undeclared : Variable.isDeclared name = false)
    (x : Context) (h : Heap) : (bindings x h).1.get (.named name) = .nil := by
  rcases (tableOf_get _).2 (.named name) with nil | ⟨e, member, same, -⟩
  · exact nil
  · have equal : name = e.1 := Key.named_injective same
    have declared : Variable.isDeclared name = true := by
      simp only [List.mem_cons, List.not_mem_nil, or_false] at member
      rw [equal]
      rcases member with rfl | rfl | rfl | rfl | rfl <;> rfl
    rw [undeclared] at declared
    cases declared

namespace Placement

variable {s : State} {name : String} {j : Json} (c : s.Placement name j)

theorem leads_fits {env : Nat} (later : c.size ≤ env) {t : Table}
    (leads : t.Leads (s.heap.ViewAt (isOutside c.start c.count))
      (s.heap.SourceAt c.names (isOutside c.start c.count))) :
    t.Fits (c.pairing env) ∧ t.rename c.move = t := by
  have entries : t.Holds (Value.Fits (c.pairing env)) :=
    leads.entries.mono fun v inside => c.fits_leads inside
  have values : t.Holds fun v => v.rename c.move = v.rename id :=
    leads.entries.mono fun v inside => (c.rename_leads inside).trans v.rename_id.symm
  rcases leads.handlers with none | ⟨source, support, same, bound, other, outside⟩
  · refine ⟨⟨entries, none ▸ no_handlers_fit⟩, ?_⟩
    rw [Table.rename_congr _ values, Table.rename_id]
    rw [none]
    rfl
  · have mirrored : (c.pairing env).Mirrored source :=
      ⟨other, outside, fun equal => absurd (equal ▸ bound) (Nat.not_lt_of_le later)⟩
    refine ⟨⟨entries, ?_⟩, ?_⟩
    · rw [same]
      constructor <;> (intro n found; cases found; first | exact mirrored | trivial)
    · rw [Table.rename_congr _ values, Table.rename_id]
      rw [same]
      simp [Table.view, Handlers.rename, Native.rename, c.move_old bound outside]

theorem own_fits {env : Nat} {v : Value} (own : v.Own c.size env) : v.Fits (c.pairing env) := by
  cases v with
  | table id => exact .inr ⟨own.1, Nat.ne_of_lt own.2⟩
  | native _ => exact own.elim
  | _ => trivial

theorem globals_begin {env : Nat} {entries : Table} (tidy : entries.Tidy 0)
    (tidy' : (entries.rename c.move).Tidy 0) (own : entries.Holds (Value.Own c.size env))
    (free : entries.get (.named name) = .nil) :
    c.Globals env (s.globals entries) (s.globals ((entries.rename c.move).setText name
      ((s.heap.rawGet c.names (.named name)).rename c.move))) := by
  obtain ⟨bound, law⟩ := tidy'.setNamed name ((s.heap.rawGet c.names (.named name)).rename c.move)
  refine ⟨⟨⟨rfl, rfl⟩, ⟨rfl, rfl⟩, ⟨s.globals_tidy tidy, s.globals_tidy bound⟩, fun n other => ⟨?_, ?_⟩⟩, free, ?_⟩
  · have held : (entries.get (.named n)).Own c.size env := own.get trivial _
    exact c.own_fits held
  · have differs : Key.named n ≠ .named name := fun same => other (Key.named_injective same)
    refine (law (.named n)).trans ?_
    rw [if_neg differs]
    exact Table.get_rename c.move_injective entries (.named n)
  · exact (law (.named name)).trans (if_pos rfl)

structure Begins (env : Nat) (h h' : Heap) : Prop where
  later : c.size ≤ env
  size : h.tables.size = env + 1 ∧ h'.tables.size = env + 1 + c.count
  old : ∀ id : Nat, id < c.size →
    h.tables[id]? = s.heap.tables[id]? ∧ h'.tables[id]? = s.heap.tables[id]?
  copies : ∀ i < c.count,
    h'.tables[c.size + i]? = s.heap.tables[c.start + 2 * i]?.map (Table.rename c.move)
  made : ∀ id : Nat, c.size ≤ id → id < env → ∃ t : Table, t.Fits (c.pairing env) ∧
    h.tables[id]? = some t ∧ h'.tables[id + c.count]? = some (t.rename c.move)
  globals : ∃ t t', h.tables[env]? = some t ∧ h'.tables[env + c.count]? = some t' ∧
    c.Globals env t t'

theorem moved (i : Nat) : (c.move (s.heap.tables.size + i) : Nat) =
    (s.heap.ofJson j).2.tables.size + i := by
  obtain ⟨-, size, -⟩ := c.copy s.heap
  have new : c.move (s.heap.tables.size + i) = s.heap.tables.size + i + c.count :=
    c.move_new (Nat.le_add_right _ _)
  omega

theorem globalsWith (x : Context) :
    (bindings x (s.heap.ofJson j).2).2.tables.size = s.globalsAt x + c.count := by
  obtain ⟨-, size, -⟩ := c.copy s.heap
  have sizes := (bindings_shifted c.moved x).1.size
  unfold globalsAt
  omega

include c in
theorem cells_begin (sealed : s.Sealed) (x : Context) : (bindings x s.heap).2.cells = #[] ∧
    (bindings x (s.heap.ofJson j).2).2.cells = #[] := by
  obtain ⟨copies, -⟩ := c.copy s.heap
  obtain ⟨left, right, -⟩ := (bindings_shifted c.moved x).1
  have cells : (s.heap.ofJson j).2.cells = #[] := by rw [copies, sealed.heap.cells]
  constructor
  · rw [left, sealed.heap.cells]
  · rw [right, cells]

theorem begins (undeclared : Variable.isDeclared name = false) (x : Context) :
    c.Begins (s.globalsAt x) (s.heapOf x) (s.heapWith name j x) := by
  obtain ⟨-, size, old, made, value⟩ := c.copy s.heap
  obtain ⟨shifted, own, -, tidy, renamed⟩ := bindings_shifted c.moved x
  have tidy' : ((bindings x s.heap).1.rename c.move).Tidy 0 := renamed ▸ (tableOf_get _).1
  have globals := c.globals_begin tidy tidy' own (bindings_undeclared undeclared x s.heap)
  have entry : (s.heap.rawGet c.names (.named name)).rename c.move = (s.heap.ofJson j).1 := by
    rw [value]
    exact (c.unwrap_eq c.viewed).symm
  rw [entry, ← renamed] at globals
  have later : c.size ≤ s.globalsAt x := shifted.grown
  have width : (s.heap.ofJson j).2.tables.size = c.size + c.count := size
  have count := c.globalsWith x
  have left (id : Nat) : (s.heapOf x).tables[id]? =
      if id = s.globalsAt x then some (s.globals (bindings x s.heap).1)
      else (bindings x s.heap).2.tables[id]? := s.opened_table _ _ id
  have right (id : Nat) : (s.heapWith name j x).tables[id]? =
      if id = s.globalsAt x + c.count then
        some (s.globals ((bindings x (s.heap.ofJson j).2).1.setText name (s.heap.ofJson j).1))
      else (bindings x (s.heap.ofJson j).2).2.tables[id]? := by
    rw [← count]
    exact s.opened_table _ _ id
  refine ⟨later, ⟨Array.size_push .., ?_⟩, fun id bound => ⟨?_, ?_⟩, fun i bound => ?_,
    fun id new inside => ?_, _, _, ?_, ?_, globals⟩
  · have grown : (s.heapWith name j x).tables.size =
        (bindings x (s.heap.ofJson j).2).2.tables.size + 1 := Array.size_push ..
    omega
  · rw [left, if_neg (by omega), shifted.old id bound]
  · rw [right, if_neg (by omega), shifted.old' id (by omega), old id bound]
  · obtain ⟨t, entries, handlers, -, -, -, source, -⟩ := c.stands i bound
    have place : (s.heap.ofJson j).2.tables[c.size + i]? = _ := made i bound
    rw [right, if_neg (by omega), shifted.old' _ (by omega), place, source]
    have same : t.rename (unwrap c.start s.heap.tables.size) = t.rename c.move := by
      refine Table.rename_congr ?_ (entries.mono fun v viewed => c.unwrap_eq viewed)
      rw [handlers]
      rfl
    exact congrArg some same
  · obtain ⟨i, rfl⟩ := Nat.exists_eq_add_of_le new
    obtain ⟨t, entries, handlers, here, there⟩ := shifted.made i inside
    refine ⟨t, ⟨entries.mono fun v own => c.own_fits own, handlers ▸ no_handlers_fit⟩, ?_, ?_⟩
    · rw [left, if_neg (by omega)]
      exact here
    · rw [right, if_neg (by omega), Nat.add_right_comm, ← width]
      exact there
  · rw [left, if_pos rfl]
  · rw [right, if_pos rfl]

namespace Begins

variable {c} {env : Nat} {h h' : Heap} (begins : c.Begins env h h')

include begins

theorem mirrored {id : Nat} (mirrored : (c.pairing env).Mirrored id) :
    (∃ t : Table, t.Fits (c.pairing env) ∧ h.tables[id]? = some t ∧
      h'.tables[c.move id]? = some (t.rename c.move)) ∨
    h.tables[id]? = none ∧ h'.tables[c.move id]? = none := by
  obtain ⟨notNames, outside, notGlobals⟩ := mirrored
  have room := c.room_size
  by_cases old : id < c.size
  · obtain ⟨here, there⟩ := begins.old id old
    have bound : id < s.heap.tables.size := old
    have found : s.heap.tables[id]? = some s.heap.tables[id] := Array.getElem?_eq_getElem bound
    obtain ⟨fits, same⟩ :=
      c.leads_fits begins.later (c.orderly.tables id _ found notNames outside)
    refine .inl ⟨_, fits, here.trans found, ?_⟩
    rw [c.move_old old outside, there, found, same]
  · have new : c.size ≤ id := Nat.le_of_not_lt old
    rw [c.move_new new]
    by_cases inside : id < env
    · exact .inl (begins.made id new inside)
    · obtain ⟨size, size'⟩ := begins.size
      exact .inr ⟨Array.getElem?_eq_none (by omega), Array.getElem?_eq_none (by omega)⟩

theorem beside : c.Beside env h.tables h'.tables := by
  have room := c.room_size
  have below := c.below
  refine ⟨begins.old c.names (by omega), fun id inside => ?_, begins.copies, begins.globals⟩
  unfold isOutside at inside
  exact (begins.old id (by omega)).1

theorem alike (functions : h.functions = #[] ∧ h'.functions = #[])
    (cells : h.cells = #[.table env] ∧ h'.cells = #[.table (env + c.count)])
    (strings : h.stringMethods = s.heap.stringMethods ∧
      h'.stringMethods = s.heap.stringMethods) :
    (c.pairing env).Alike h h' := by
  have place : (c.move env : Nat) = env + c.count := c.move_new begins.later
  obtain ⟨bound, other, outside⟩ := c.orderly.strings
  refine .begin (fun id => begins.mirrored) begins.size.1.symm ?_ begins.beside functions rfl
    ⟨cells.1, cells.2.trans ?_⟩ ?_
  · rw [begins.size.1, begins.size.2]
    rfl
  · exact congrArg (fun id => #[Value.table id]) place.symm
  · rw [strings.1, strings.2]
    exact ⟨⟨other, outside, Nat.ne_of_lt (Nat.lt_of_lt_of_le bound begins.later)⟩,
      (c.move_old bound outside).symm⟩

end Begins

theorem alike_begin (undeclared : Variable.isDeclared name = false) (sealed : s.Sealed)
    (x : Context) :
    (c.pairing (s.globalsAt x)).Alike (s.heapOf x) (s.heapWith name j x) := by
  have begins := c.begins undeclared x
  obtain ⟨copies, size, -⟩ := c.copy s.heap
  obtain ⟨left, right, -⟩ := (bindings_shifted c.moved x).1
  have strings : (s.heap.ofJson j).2.stringMethods = s.heap.stringMethods := by rw [copies]
  have functions : (s.heap.ofJson j).2.functions = #[] := by rw [copies, sealed.heap.functions]
  obtain ⟨cells, cells'⟩ := c.cells_begin sealed x
  apply begins.alike
  · constructor
    · show (bindings x s.heap).2.functions = #[]
      rw [left, sealed.heap.functions]
    · show (bindings x (s.heap.ofJson j).2).2.functions = #[]
      rw [right, functions]
  · constructor
    · show (bindings x s.heap).2.cells.push (.table _) = #[.table _]
      rw [cells]
      rfl
    · show (bindings x (s.heap.ofJson j).2).2.cells.push (.table _) = #[.table _]
      rw [c.globalsWith, cells']
      rfl
  · constructor
    · show (bindings x s.heap).2.stringMethods = _
      rw [left]
    · show (bindings x (s.heap.ofJson j).2).2.stringMethods = _
      rw [right, strings]

end Placement

end State

end CallGuard.Lua
