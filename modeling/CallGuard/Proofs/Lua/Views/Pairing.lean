import CallGuard.Proofs.Lua.Paired.Globals
import CallGuard.Proofs.Lua.Paired.Machine
import CallGuard.Proofs.Lua.Views.Calls

set_option autoImplicit false

namespace CallGuard.Lua

-- What only reads does not step through a view by hand, nor show how tables are called.
def avoids (n : Native) (args : List Value) (h : Heap) : Bool :=
  match n with
  | .viewNewIndex _ => true
  | .base .toString => (Library.Args.value args 1).isTable
  | .string .format => args.any Value.isTable
  | .base .next =>
    match Library.Args.value args 1 with
    | .table id => (h.handlers id).pairs.isSome
    | _ => false
  | _ => false

namespace State.Placement

variable {s : State} {name : String} {j : Json} (c : s.Placement name j)

def size (_ : s.Placement name j) : Nat := s.heap.tables.size

def move (id : Nat) : Nat :=
  if c.start ≤ id ∧ id < c.start + 2 * c.count ∧ (id - c.start) % 2 = 1 then
    c.size + (id - c.start) / 2
  else if c.size ≤ id then id + c.count
  else id

theorem room_size : c.start + 2 * c.count ≤ c.size := c.room

theorem move_view {i : Nat} (bound : i < c.count) :
    c.move (c.start + 2 * i + 1) = c.size + i := by
  unfold move
  rw [if_pos (by omega)]
  omega

theorem move_new {id : Nat} (new : c.size ≤ id) : c.move id = id + c.count := by
  have room := c.room_size
  unfold move
  rw [if_neg (by omega), if_pos new]

theorem move_old {id : Nat} (old : id < c.size) (outside : isOutside c.start c.count id) :
    c.move id = id := by
  unfold isOutside at outside
  unfold move
  rw [if_neg (by omega), if_neg (by omega)]

theorem move_injective : Function.Injective c.move := by
  intro a b same
  have room := c.room_size
  unfold move at same
  split at same <;> split at same <;> try split at same
  all_goals try split at same
  all_goals omega

def shown (env : Nat) : Pairing where
  move := c.move
  Mirrored (id : Nat) := id ≠ c.names ∧ isOutside c.start c.count id ∧ id ≠ env
  Shows (id : Nat) := s.heap.IsView id ∨ c.size ≤ id ∧ id ≠ env
  fresh := env + 1
  more := c.count
  env := env
  envCell := 0
  Says m := m.name ≠ environmentName ∧ m ≠ ⟨name, .assigned⟩ ∧ m ≠ ⟨"pairs", .read⟩
  HoldsPairs := False
  Beside _ _ := True
  Steps f f' state := ∃ i < c.count,
    f = .native (.viewStep (c.start + 2 * i) (c.start + 2 * i + 1) c.support) ∧
      f' = .native (.base .next) ∧ state = .table (c.start + 2 * i + 1)
  Avoids n args h := avoids n args h
  Detours := True

structure Globals (env : Nat) (t t' : Table) : Prop extends
    Table.SameGlobals c.move (Value.Fits (c.shown env)) s.names s.names (· = name) t t' where
  own : t.get (.named name) = .nil ∧
    t'.get (.named name) = (s.heap.rawGet c.names (.named name)).rename c.move

structure Beside (env : Nat) (ts ts' : Array Table) : Prop where
  names : ts[c.names]? = s.heap.tables[c.names]? ∧ ts'[c.names]? = s.heap.tables[c.names]?
  views : ∀ id, ¬ isOutside c.start c.count id → ts[id]? = s.heap.tables[id]?
  copies : ∀ i < c.count,
    ts'[c.size + i]? = s.heap.tables[c.start + 2 * i]?.map (Table.rename c.move)
  globals : ∃ t t', ts[env]? = some t ∧ ts'[env + c.count]? = some t' ∧ c.Globals env t t'

def pairing (env : Nat) : Pairing := { c.shown env with Beside := c.Beside env }

variable {env : Nat}

theorem mirrored_new {id : Nat} (new : c.size ≤ id) (other : id ≠ env) :
    (c.pairing env).Mirrored id ∧ (c.pairing env).Shows id := by
  have room := c.room_size
  have below := c.below
  refine ⟨⟨?_, .inr ?_, other⟩, .inr ⟨new, other⟩⟩
  · omega
  · omega

theorem view_place (later : c.size ≤ env) {id : Nat} (view : s.heap.IsView id) :
    id < c.size ∧ id ≠ c.names ∧ id ≠ env := by
  have bound : id < c.size := view.lt_size
  refine ⟨bound, fun same => ?_, by omega⟩
  exact c.orderly.plain.not_view (same ▸ view)

theorem mirrored_or_view (later : c.size ≤ env) {id : Nat}
    (shows : (c.pairing env).Shows id) :
    (c.pairing env).Mirrored id ∨ ∃ i < c.count, id = c.start + 2 * i + 1 := by
  rcases shows with view | ⟨new, other⟩
  · obtain ⟨bound, notNames, notEnv⟩ := c.view_place later view
    by_cases outside : isOutside c.start c.count id
    · exact .inl ⟨notNames, outside, notEnv⟩
    · unfold isOutside at outside
      refine .inr ⟨(id - c.start) / 2, by omega, ?_⟩
      by_cases odd : (id - c.start) % 2 = 1
      · omega
      · -- a table of the constant has no handlers
        obtain ⟨t, -, handlers, -, -, -, found, -⟩ :=
          c.stands ((id - c.start) / 2) (by omega)
        obtain ⟨source, support, shown⟩ := view
        rw [show c.start + 2 * ((id - c.start) / 2) = id by omega, shown] at found
        cases found
        cases handlers
  · exact .inl (c.mirrored_new new other).1

theorem shows_view {i : Nat} (bound : i < c.count) :
    (c.pairing env).Shows (c.start + 2 * i + 1) := by
  obtain ⟨t, -, -, -, -, -, -, view⟩ := c.stands i bound
  exact .inl ⟨_, _, view⟩

theorem unwrap_eq {v : Value} (viewed : v.Viewed c.start c.count) :
    v.rename (unwrap c.start c.size) = v.rename c.move := by
  cases v with
  | table id =>
    obtain ⟨i, bound, rfl⟩ := viewed
    apply congrArg Value.table
    rw [unwrap_view, c.move_view bound]
  | native _ => exact viewed.elim
  | _ => rfl

theorem fits_viewed {v : Value} (viewed : v.Viewed c.start c.count) : v.Fits (c.pairing env) := by
  cases v with
  | table id =>
    obtain ⟨i, bound, rfl⟩ := viewed
    exact c.shows_view bound
  | native _ => exact viewed.elim
  | _ => trivial

theorem fits_leads {v : Value} (leads : v.Leads (s.heap.ViewAt (isOutside c.start c.count))) :
    v.Fits (c.pairing env) := by
  cases v with
  | table id => exact .inl leads.1
  | native n =>
    cases n with
    | base f =>
      cases f with
      | pairs => exact absurd rfl leads
      | _ => trivial
    | matchStep => exact leads.elim
    | lookup => exact leads.elim
    | viewIndex => exact leads.elim
    | viewLength => exact leads.elim
    | viewPairs => exact leads.elim
    | viewStep => exact leads.elim
    | _ => trivial
  | _ => trivial

theorem rename_leads {v : Value} (leads : v.Leads (s.heap.ViewAt (isOutside c.start c.count))) :
    v.rename c.move = v := by
  cases v with
  | table id => exact congrArg Value.table (c.move_old leads.1.lt_size leads.2)
  | native n => cases n <;> first | rfl | exact leads.elim
  | _ => rfl

-- A table of the constant, the view of it, and the copy.
structure Seen (env i : Nat) (t : Table) (h h' : Heap) : Prop where
  entries : t.Holds (Value.Fits (c.pairing env))
  handlers : t.handlers = .none
  distinct : t.Distinct
  narrow : t.items.size < 2 ^ 63
  floats : ∀ bits, t.get (.float bits) = .nil
  source : h.tables[c.start + 2 * i]? = some t
  view : h.tables[c.start + 2 * i + 1]? = some (.view (c.start + 2 * i) c.support)
  copy : h'.tables[c.size + i]? = some (t.rename c.move)

theorem seen {h h' : Heap} (alike : (c.pairing env).Alike h h') {i : Nat} (bound : i < c.count) :
    ∃ t, c.Seen env i t h h' := by
  obtain ⟨t, entries, handlers, distinct, narrow, floats, source, view⟩ := c.stands i bound
  have beside : c.Beside env h.tables h'.tables := alike.beside
  refine ⟨t, entries.mono fun v viewed => c.fits_viewed viewed, handlers, distinct, narrow,
    floats, ?_, ?_, ?_⟩
  · rw [beside.views _ (by unfold isOutside; omega), source]
  · rw [beside.views _ (by unfold isOutside; omega), view]
  · rw [beside.copies i bound, source]
    rfl

theorem beside_push {ts ts' : Array Table} (beside : c.Beside env ts ts')
    (later : c.size ≤ env) (fresh : env + 1 ≤ ts.size) (size : ts'.size = ts.size + c.count)
    (t t' : Table) : c.Beside env (ts.push t) (ts'.push t') := by
  have room := c.room_size
  have below := c.below
  have kept {us : Array Table} (u : Table) {id : Nat} (bound : id < us.size) :
      (us.push u)[id]? = us[id]? := by
    rw [Array.getElem?_push, if_neg (Nat.ne_of_lt bound)]
  obtain ⟨names, views, copies, u, u', global, global', globals⟩ := beside
  refine ⟨⟨?_, ?_⟩, fun id inside => ?_, fun i bound => ?_, u, u', ?_, ?_, globals⟩
  · rw [kept t (by omega), names.1]
  · rw [kept t' (by omega), names.2]
  · unfold isOutside at inside
    rw [kept t (by omega), views id inside]
  · rw [kept t' (by omega), copies i bound]
  · rw [kept t (by omega), global]
  · rw [kept t' (by omega), global']

theorem beside_modify {ts ts' : Array Table} (beside : c.Beside env ts ts')
    (later : c.size ≤ env) {id : Nat} (mirrored : (c.pairing env).Mirrored id)
    (shows : (c.pairing env).Shows id) (f f' : Table → Table) :
    c.Beside env (ts.modify id f) (ts'.modify (c.move id) f') := by
  have room := c.room_size
  have below := c.below
  obtain ⟨notNames, outside, notEnv⟩ := mirrored
  -- Where the table is on the other side, nothing stands that is not mirrored.
  have place : c.move id ≠ c.names ∧ (c.move id < c.size ∨ c.size + c.count ≤ c.move id) ∧
      c.move id ≠ env + c.count := by
    rcases shows with view | ⟨new, -⟩
    · have old := (c.view_place later view).1
      rw [c.move_old old outside]
      omega
    · rw [c.move_new new]
      omega
  have kept {us : Array Table} (g : Table → Table) {place id : Nat} (other : place ≠ id) :
      (us.modify place g)[id]? = us[id]? := by
    rw [Array.getElem?_modify, if_neg other]
  obtain ⟨names, views, copies, u, u', global, global', globals⟩ := beside
  refine ⟨⟨?_, ?_⟩, fun id inside => ?_, fun i bound => ?_, u, u', ?_, ?_, globals⟩
  · rw [kept f notNames, names.1]
  · rw [kept f' place.1, names.2]
  · have other : id ≠ _ := fun same => inside (same ▸ outside)
    rw [kept f other.symm, views id inside]
  · rw [kept f' (by omega), copies i bound]
  · rw [kept f notEnv, global]
  · rw [kept f' place.2.2, global']

end State.Placement

end CallGuard.Lua
