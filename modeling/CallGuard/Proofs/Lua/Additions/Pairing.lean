import CallGuard.Proofs.Lua.Additions.Constants
import CallGuard.Proofs.Lua.Paired.Globals
import CallGuard.Proofs.Lua.Paired.Machine

set_option autoImplicit false

namespace CallGuard.Lua

open Routine

def Native.printsPlace (n : Native) (args : List Value) : Bool :=
  match n with
  | .base .toString => (Library.Args.value args 1).isTable
  | .string .format => args.any Value.isTable
  | .viewNewIndex _ => (Library.Args.value args 2).isTable
  | _ => false

namespace State.Addition

variable {s s' : State} {further : String → Prop} (c : s.Addition s' further)

def size (_ : s.Addition s' further) : Nat := s.heap.tables.size

def more (_ : s.Addition s' further) : Nat := s'.heap.tables.size - s.heap.tables.size

theorem size_more : s'.heap.tables.size = c.size + c.more :=
  (Nat.add_sub_cancel' c.grows.moved.wider).symm

theorem move_new {id : Nat} (new : c.size ≤ id) : c.move id = id + c.more := by
  have shift : c.move (c.size + (id - c.size)) = s'.heap.tables.size + (id - c.size) :=
    c.grows.moved.shift _
  have size := c.size_more
  rw [Nat.add_sub_cancel' new] at shift
  omega

theorem names_lt : c.names < c.size := c.grows.left.names_lt

-- The two calls, but for the tables of global names.
def shown (env : Nat) : Pairing where
  move := c.move
  Mirrored (id : Nat) := id ≠ c.names ∧ id ≠ env
  Shows (id : Nat) := id ≠ c.names ∧ id ≠ env
  fresh := env + 1
  more := c.more
  env := env
  envCell := 0
  Says m := m.name ≠ environmentName ∧ ¬ further m.name
  HoldsPairs := True
  Beside _ _ := True
  Steps _ _ _ := False
  Avoids n args _ := n.printsPlace args
  Detours := False

structure Beside (env : Nat) (ts ts' : Array Table) : Prop where
  names : ts[c.names]? = s.heap.tables[c.names]? ∧ ts'[c.names]? = s'.heap.tables[c.names]?
  globals : ∃ t t', ts[env]? = some t ∧ ts'[env + c.more]? = some t' ∧
    Table.SameGlobals c.move (Value.Fits (c.shown env)) s.names s'.names further t t'

def pairing (env : Nat) : Pairing := { c.shown env with Beside := c.Beside env }

variable {env : Nat}

theorem move_ne_names {id : Nat} (other : id ≠ c.names) : c.move id ≠ c.names := fun same =>
  other (c.grows.moved.injective (same.trans c.grows.moved.fixed.symm))

theorem fits_leads (later : c.size ≤ env) {v : Value}
    (leads : v.Leads (s.heap.ViewAt fun _ => True)) : v.Fits (c.pairing env) := by
  cases v with
  | table id =>
    have bound : id < c.size := leads.1.lt_size
    exact ⟨fun same => c.grows.left.plain.not_view (same ▸ leads.1),
      Nat.ne_of_lt (Nat.lt_of_lt_of_le bound later)⟩
  | native n =>
    cases n with
    | base f => cases f <;> trivial
    | _ => trivial
  | _ => trivial

theorem fits_global (later : c.size ≤ env) (n : String) :
    (s.heap.rawGet c.names (.named n)).Fits (c.pairing env) := by
  rcases c.grows.left.global (k := .named n) not_false with leads | ⟨-, pairs⟩
  · exact c.fits_leads later leads
  · rw [pairs]
    trivial

section

variable (later : c.size ≤ env)

include later

theorem beside_push {ts ts' : Array Table} (beside : c.Beside env ts ts')
    (fresh : env + 1 ≤ ts.size) (size : ts'.size = ts.size + c.more) (t t' : Table) :
    c.Beside env (ts.push t) (ts'.push t') := by
  have below := c.names_lt
  have kept {us : Array Table} (u : Table) {id : Nat} (bound : id < us.size) :
      (us.push u)[id]? = us[id]? := by
    rw [Array.getElem?_push, if_neg (Nat.ne_of_lt bound)]
  obtain ⟨names, u, u', here, there, globals⟩ := beside
  refine ⟨⟨?_, ?_⟩, u, u', ?_, ?_, globals⟩
  · rw [kept t (by omega), names.1]
  · rw [kept t' (by omega), names.2]
  · rw [kept t (by omega), here]
  · rw [kept t' (by omega), there]

theorem beside_modify {ts ts' : Array Table} (beside : c.Beside env ts ts') {id : Nat}
    (other : id ≠ c.names ∧ id ≠ env) (f f' : Table → Table) :
    c.Beside env (ts.modify id f) (ts'.modify (c.move id) f') := by
  have kept {us : Array Table} (g : Table → Table) {place id : Nat} (differs : place ≠ id) :
      (us.modify place g)[id]? = us[id]? := by
    rw [Array.getElem?_modify, if_neg differs]
  obtain ⟨names, u, u', here, there, globals⟩ := beside
  refine ⟨⟨?_, ?_⟩, u, u', ?_, ?_, globals⟩
  · rw [kept f other.1, names.1]
  · rw [kept f' (c.move_ne_names other.1), names.2]
  · rw [kept f other.2, here]
  · rw [← c.move_new later, kept f' (c.grows.moved.injective.ne other.2), c.move_new later, there]

theorem lookup_paired {n : String} (known : ¬ further n) (o o' : Value) :
    (Library.perform s.names [o, .text n]).Paired (c.pairing env)
      (Library.perform s'.names [o', .text n]) (c.pairing env).ofValues := by
  intro K K' h h' alike next
  have beside : c.Beside env h.tables h'.tables := alike.beside
  have here : h.rawGet c.names (.named n) = s.heap.rawGet c.names (.named n) :=
    Heap.rawGet_congr beside.names.1 _
  have there : h'.rawGet c.names (.named n) =
      (s.heap.rawGet c.names (.named n)).rename c.move := by
    rw [← c.grows.entries n known]
    exact Heap.rawGet_congr beside.names.2 _
  have listed : (c.optional'.any fun m => Bytes.ofText m == .ofText n) =
      c.optional.any fun m => Bytes.ofText m == .ofText n := by
    rw [Bool.eq_iff_iff, Library.any_named, Library.any_named, c.isOptional n known]
  rw [c.lookup, c.lookup', Library.lookup_apply, Library.lookup_apply, here, there,
    Value.isNil_rename, listed]
  split
  · refine next _ _ h h' ⟨?_, rfl⟩ alike
    simpa using c.fits_global later n
  · have reported := Turn.Paired.fail (f := Library.undeclared c.support n) alike
    rwa [Library.undeclared_rename] at reported

theorem readName {n : String} (known : ¬ further n) (site : CallSite) :
    ((Value.table env).index (.text n) site).Paired (c.pairing env)
      ((Value.table (c.move env)).index (.text n) site) (c.pairing env).ofValue := by
  intro K K' h h' alike next
  have beside : c.Beside env h.tables h'.tables := alike.beside
  obtain ⟨t, t', here, there, globals⟩ := beside.globals
  obtain ⟨fits, same⟩ := globals.others n known
  have found : h.found env (.text n) = t.get (.named n) := Heap.found_eq here rfl
  have found' : h'.found (env + c.more) (.text n) = (t.get (.named n)).rename c.move :=
    (Heap.found_eq there rfl).trans same
  rw [c.move_new later, Value.index_apply, Value.index_apply, found, found', Value.isNil_rename,
    Heap.handlers_eq here, Heap.handlers_eq there, globals.index.1, globals.index.2]
  split
  · have body : (Library.run s.names [.table env, .text n]).Paired (c.pairing env)
        (Library.run s'.names [.table (env + c.more), .text n]) (c.pairing env).ofValues :=
      Library.paired_spent rfl (c.lookup_paired later known _ _)
    refine paired_answer site.inside body _ _ h h' alike ?_
    rintro vs _ g g' ⟨results, rfl⟩ alike'
    exact next _ _ g g' ⟨results.firstOf, firstOf_rename vs⟩ alike'
  · exact next _ _ h h' ⟨fits, rfl⟩ alike

theorem assignGlobal {n : String} (site : CallSite) {v : Value} (fits : v.Fits (c.pairing env)) :
    ((Value.table env).setIndex (.text n) v site).Paired (c.pairing env)
      ((Value.table (c.move env)).setIndex (.text n) (v.rename c.move) site) Eq := by
  intro K K' h h' alike next
  have beside : c.Beside env h.tables h'.tables := alike.beside
  obtain ⟨names, t, t', here, there, globals⟩ := beside
  have below := c.names_lt
  have kept {us : Array Table} (g : Table → Table) {place id : Nat} (differs : place ≠ id) :
      (us.modify place g)[id]? = us[id]? := by
    rw [Array.getElem?_modify, if_neg differs]
  have changed : c.Beside env (h.tables.modify env (·.set (.named n) v))
      (h'.tables.modify (env + c.more) (·.set (.named n) (v.rename c.move))) := by
    refine ⟨⟨?_, ?_⟩, _, _, ?_, ?_, globals.set n fits⟩
    · rw [kept _ (by omega), names.1]
    · rw [kept _ (by omega), names.2]
    · rw [Array.getElem?_modify, if_pos rfl, here]
      rfl
    · rw [Array.getElem?_modify, if_pos rfl, there]
      rfl
  rw [← c.move_new later] at there changed
  have own : ¬ (c.pairing env).Mirrored env := fun mirrored => mirrored.2 rfl
  exact alike.paired_assign c.grows.moved.injective own here there globals.newIndex site changed
    fun g g' alike => next () () g g' rfl alike

omit later in
theorem takes_clear {n : Native} {args : List Value} (fits : Values.Fits (c.pairing env) args)
    (clear : ¬ n.printsPlace args) : n.Takes (c.pairing env) args := by
  have held : ∀ id, Library.Args.value args 1 = .table id → (c.pairing env).Mirrored id :=
    fun id first => by
      have shows : (Value.table id).Fits (c.pairing env) := first ▸ Library.Args.value_fits fits 1
      exact shows
  cases n with
  | base f =>
    cases f with
    | toString => exact Bool.eq_false_iff.2 clear
    | pairs => exact held
    | next => exact held
    | _ => trivial
  | string f =>
    cases f with
    | format => simpa [Native.printsPlace, Native.Takes] using clear
    | _ => trivial
  | viewNewIndex => exact Bool.eq_false_iff.2 clear
  | _ => trivial

theorem pairing_lawful : (c.pairing env).Lawful where
  injective := c.grows.moved.injective
  made id new := by
    have below := c.names_lt
    have fresh : env + 1 ≤ id := new
    have other : id ≠ c.names ∧ id ≠ env := by omega
    exact ⟨c.move_new (by omega), other, other⟩
  besidePush beside fresh size t t' := c.beside_push later beside fresh size t t'
  besideModify beside id mirrored _ f f' := c.beside_modify later beside mirrored f f'
  named _ said := said.1
  clear _ n args _ fits clear := c.takes_clear fits clear
  index id k site shows other _ := absurd shows other
  setIndex id k v site shows other _ _ := absurd shows other
  length id site shows other := absurd shows other
  readGlobal n site said := c.readName later said.2 site
  readWalked n site said :=
    (c.readName later said.2 site).mono fun _ _ ⟨fits, same⟩ => ⟨.inl fits, same⟩
  assignGlobal n v site _ fits := c.assignGlobal later site fits
  walk id args site first other fits := by
    have shows : (Value.table id).Fits (c.pairing env) := first ▸ Library.Args.value_fits fits 1
    exact absurd shows other
  step f f' state control site steps _ _ := steps.elim

end

end State.Addition

end CallGuard.Lua
