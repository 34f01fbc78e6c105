import CallGuard.Proofs.Lua.Paired.Operations

set_option autoImplicit false

namespace CallGuard.Lua

open Routine

variable {p : Pairing}

@[simp] theorem Pairing.speaks_nil : p.Speaks [] := List.forall_mem_nil p.Says

@[simp] theorem Pairing.speaks_cons (m : Mention) (ms : List Mention) :
    p.Speaks (m :: ms) ↔ p.Says m ∧ p.Speaks ms :=
  List.forall_mem_cons

@[simp] theorem Pairing.speaks_append (ms ns : List Mention) :
    p.Speaks (ms ++ ns) ↔ p.Speaks ms ∧ p.Speaks ns :=
  List.forall_mem_append

theorem Expr.mentions_withoutParens (e : Expr) : e.withoutParens.mentions = e.mentions := by
  induction e using Expr.withoutParens.induct with
  | case1 e ih => rw [withoutParens, mentions, ih]
  | case2 e other => rw [withoutParens]; exact other

theorem Pairing.Binds.lookup {bindings : Bindings} (binds : p.Binds bindings) {n : String}
    {c : CellId} (found : bindings.lookup n = some c) :
    n = environmentName ↔ c = p.envCell := by
  induction bindings with
  | nil => simp at found
  | cons b rest ih =>
    obtain ⟨m, d⟩ := b
    have here := binds (m, d) List.mem_cons_self
    rw [List.lookup_cons] at found
    split at found
    · next same =>
      cases found
      rw [eq_of_beq same]
      exact here
    · exact ih (fun b member => binds b (List.mem_cons_of_mem _ member)) found

namespace Scope.Fits

variable {s : Scope} (scope : s.Fits p)

include scope

theorem find? {n : String} {c : CellId} (found : s.find? n = some c) :
    n = environmentName ↔ c = p.envCell := by
  unfold Scope.find? at found
  cases here : s.locals.lookup n with
  | some d =>
    simp only [here, Option.some_or, Option.some.injEq] at found
    exact found ▸ scope.locals.lookup here
  | none =>
    simp only [here, Option.none_or] at found
    exact scope.captured.lookup found

theorem all : p.Binds s.all := by
  intro b member
  rcases List.mem_append.1 member with own | around
  · exact scope.locals b own
  · exact scope.captured b around

theorem bind {n : String} (named : n ≠ environmentName) {c : CellId} (other : c ≠ p.envCell) :
    (s.bind n c).Fits p := by
  refine ⟨?_, scope.captured, scope.varargs⟩
  intro b member
  rcases List.mem_cons.1 member with rfl | old
  · exact iff_of_false named other
  · exact scope.locals b old

theorem keep (n : Nat) : (s.keep n).Fits p :=
  ⟨fun b member => scope.locals b (List.mem_of_mem_drop member), scope.captured, scope.varargs⟩

end Scope.Fits

def Operand.rename (move : TableId → TableId) : Operand → Operand
  | .value v => .value (v.rename move)
  | .cell c => .cell c

def Operand.Fits (p : Pairing) : Operand → Prop
  | .value v => v.Fits p
  | .cell c => c ≠ p.envCell

abbrev Pairing.ofOperand (p : Pairing) : Operand → Operand → Prop :=
  Carried (Operand.rename p.move) (Operand.Fits p)

abbrev Pairing.ofScope (p : Pairing) : Scope → Scope → Prop :=
  Carried (Scope.rename p.move) (Scope.Fits p)

theorem Operand.paired_get {o : Operand} (fits : o.Fits p) :
    o.get.Paired p (o.rename p.move).get p.ofValue := by
  cases o with
  | value v => exact paired_pure ⟨fits, rfl⟩
  | cell c => exact paired_cell fits

theorem paired_single {r r' : Routine (List Value)} (paired : r.Paired p r' p.ofValues) :
    (single r).Paired p (single r') p.ofValue :=
  Value.paired_firstOf paired

theorem paired_operand {s : Scope} (scope : s.Fits p) {e : Expr} (said : p.Speaks e.mentions)
    (named : ∀ m, p.Says m → m.name ≠ environmentName) {r r' : Routine (List Value)}
    (paired : r.Paired p r' p.ofValues) :
    (operand s e r).Paired p (operand (s.rename p.move) e r') p.ofOperand := by
  have same : e.ownVariable? (s.rename p.move) = e.ownVariable? s := rfl
  unfold operand
  rw [same]
  cases own : e.ownVariable? s with
  | none => exact (paired_single paired).bind fun v fits => paired_pure ⟨fits, rfl⟩
  | some c =>
    refine paired_pure ⟨?_, rfl⟩
    unfold Expr.ownVariable? at own
    split at own
    · next n line is =>
      rw [← Expr.mentions_withoutParens, is, Expr.mentions, Pairing.speaks_cons] at said
      exact fun env => named _ said.1 ((scope.locals.lookup own).2 env)
    · cases own

theorem paired_environment {s : Scope} (scope : s.Fits p) :
    (environment s).Paired p (environment (s.rename p.move))
      (Carried (Value.rename p.move) fun v => v = .table p.env) := by
  have same : (s.rename p.move).find? environmentName = s.find? environmentName := rfl
  unfold environment
  rw [same]
  cases found : s.find? environmentName with
  | none => exact paired_invalid
  | some c =>
    have env : c = p.envCell := (scope.find? found).1 rfl
    refine paired_read fun h h' alike => ?_
    rw [env, alike.env.1, alike.env.2]
    exact ⟨rfl, rfl⟩

theorem paired_variable {s : Scope} (scope : s.Fits p) {n : String} (named : n ≠ environmentName)
    (line : Nat) {P : Value → Prop} (weaker : ∀ v, v.Fits p → P v)
    (global : ((Value.table p.env).index (.text n) (.onLine line)).Paired p
      ((Value.table (p.move p.env)).index (.text n) (.onLine line))
      (Carried (Value.rename p.move) P)) :
    (readName s n line).Paired p (readName (s.rename p.move) n line)
      (Carried (Value.rename p.move) P) := by
  have same : (s.rename p.move).find? n = s.find? n := rfl
  unfold readName
  rw [same]
  cases found : s.find? n with
  | none =>
    refine (paired_environment scope).bind fun v env => ?_
    rw [env]
    exact global
  | some c =>
    have other : c ≠ p.envCell := fun env => named ((scope.find? found).2 env)
    exact (paired_cell other).mono fun v w carried => ⟨weaker v carried.1, carried.2⟩

theorem paired_bindAll (named : ∀ m, p.Says m → m.name ≠ environmentName) {names : List String}
    (said : p.Speaks (names.map (⟨·, .bound⟩))) {vs : List Value} {s : Scope}
    (values : Values.Fits p vs) (scope : s.Fits p) :
    (bindAll names vs s).Paired p (bindAll names (Values.rename p.move vs) (s.rename p.move))
      p.ofScope := by
  induction names generalizing vs s with
  | nil => exact paired_pure ⟨scope, rfl⟩
  | cons n names ih =>
    rw [List.map_cons, Pairing.speaks_cons] at said
    rw [bindAll, bindAll, firstOf_rename, ← List.map_tail]
    refine (paired_newCell values.firstOf).bind fun c other => ?_
    exact ih said.2 values.tail (scope.bind (named _ said.1) other)

theorem paired_newClosure {s : Scope} (scope : s.Fits p) {f : Function}
    (said : p.Speaks f.mentions) :
    (newClosure s f).Paired p (newClosure (s.rename p.move) f) p.ofValue := by
  have made : (alloc fun h => h.newFunction ⟨f, s.all⟩).Paired p
      (alloc fun h => h.newFunction ⟨f, s.all⟩) Eq :=
    paired_alloc fun _ _ alike => ⟨congrArg Array.size alike.functions.symm,
      alike.newFunction ⟨said, scope.all⟩⟩
  exact made.next fun id => paired_pure_plain trivial

def Pairing.Writable (p : Pairing) (id : TableId) : Prop := p.Mirrored id ∧ p.Shows id

section

variable (lawful : p.Lawful)

include lawful

theorem paired_alloc_table {t : Table} (fits : t.Fits p) :
    (alloc fun h => h.newTable t).Paired p (alloc fun h => h.newTable (t.rename p.move))
      (Carried p.move p.Writable) :=
  paired_alloc fun h _ alike => by
    obtain ⟨moved, writable⟩ := lawful.made h.tables.size alike.fresh
    exact ⟨⟨writable, alike.size.trans moved.symm⟩, alike.newTable lawful fits⟩

theorem paired_newTable (items others : Nat) :
    (newTable items others).Paired p (newTable items others) (Carried p.move p.Writable) := by
  have made := paired_alloc_table lawful (Table.ofSizes_fits items others)
  rwa [Table.ofSizes_rename] at made

theorem paired_putItems {id : TableId} (writable : p.Writable id) (start : Nat)
    {vs : List Value} (values : Values.Fits p vs) :
    (putItems id start vs).Paired p (putItems (p.move id) start (Values.rename p.move vs)) Eq := by
  unfold putItems
  rw [List.length_map]
  refine paired_update fun h h' alike =>
    alike.modifyTable lawful writable.1 writable.2 (fun t fits => ⟨?_, ?_⟩) fun t => ?_
  · exact (fits.entries.reserve admits_fits _).setAll admits_fits values start
  · rw [Table.setAll_handlers, Table.reserve_handlers]
    exact fits.handlers
  · rw [Table.reserve_rename, Table.setAll_rename]

end

def Target.rename (move : TableId → TableId) : Target → Target
  | .cell c => .cell c
  | .entry t k => .entry (t.rename move) (k.rename move)

inductive Target.Fits (p : Pairing) : Target → Prop
  | cell {c : CellId} (other : c ≠ p.envCell) : Fits p (.cell c)
  | entry {t k : Operand} (table : t.Fits p) (key : k.Fits p) : Fits p (.entry t k)
  | global {n : String} (said : p.Says ⟨n, .assigned⟩) :
    Fits p (.entry (.value (.table p.env)) (.value (.text n)))

abbrev Targets.Fits (p : Pairing) (ts : List Target) : Prop := ∀ t ∈ ts, t.Fits p

abbrev Pairing.ofTargets (p : Pairing) : List Target → List Target → Prop :=
  Carried (List.map (Target.rename p.move)) (Targets.Fits p)

theorem Operand.paired_settleIn {o : Operand} (fits : o.Fits p) (later : List Target) :
    (o.settleIn later).Paired p
      ((o.rename p.move).settleIn (later.map (Target.rename p.move))) p.ofOperand := by
  cases o with
  | value v => exact paired_pure ⟨fits, rfl⟩
  | cell c =>
    have same : (later.map (Target.rename p.move)).any (Target.isCell c) =
        later.any (Target.isCell c) := by
      rw [List.any_map]
      congr 1
      funext t
      cases t <;> rfl
    refine paired_ite (by rw [same]) ?_ (paired_pure ⟨fits, rfl⟩)
    exact (paired_cell fits).bind fun v value => paired_pure ⟨value, rfl⟩

theorem paired_settleAll {ts : List Target} (targets : Targets.Fits p ts) :
    (settleAll ts).Paired p (settleAll (ts.map (Target.rename p.move))) p.ofTargets := by
  induction ts with
  | nil => exact paired_pure ⟨targets, rfl⟩
  | cons t later ih =>
    obtain ⟨first, rest⟩ := List.forall_mem_cons.1 targets
    have kept : ∀ u : Target, u.Fits p →
        (do return u :: (← settleAll later)).Paired p
          (do return u.rename p.move :: (← settleAll (later.map (Target.rename p.move))))
          p.ofTargets := fun u fits =>
      (ih rest).bind fun us settled => paired_pure ⟨List.forall_mem_cons.2 ⟨fits, settled⟩, rfl⟩
    cases first with
    | cell other => exact kept _ (.cell other)
    | global said => exact kept _ (.global said)
    | entry table key =>
      refine (Operand.paired_settleIn table later).bind fun t table => ?_
      exact (Operand.paired_settleIn key later).bind fun k key => kept _ (.entry table key)

theorem paired_nameTarget {s : Scope} (scope : s.Fits p) {n : String}
    (named : n ≠ environmentName) (said : p.Says ⟨n, .assigned⟩) :
    (nameTarget s n).Paired p (nameTarget (s.rename p.move) n)
      (Carried (Target.rename p.move) (Target.Fits p)) := by
  have same : (s.rename p.move).find? n = s.find? n := rfl
  unfold nameTarget
  rw [same]
  cases found : s.find? n with
  | none =>
    refine (paired_environment scope).bind fun v env => paired_pure ⟨?_, rfl⟩
    rw [env]
    exact .global said
  | some c => exact paired_pure ⟨.cell fun env => named ((scope.find? found).2 env), rfl⟩

def Assignment.rename (move : TableId → TableId) (a : Target × Value) : Target × Value :=
  (a.1.rename move, a.2.rename move)

theorem paired_assignAll (lawful : p.Lawful) (site : CallSite)
    {assignments : List (Target × Value)}
    (fits : ∀ a ∈ assignments, a.1.Fits p ∧ a.2.Fits p) :
    (assignAll site assignments).Paired p
      (assignAll site (assignments.map (Assignment.rename p.move))) Eq := by
  induction assignments with
  | nil => exact paired_same ()
  | cons a rest ih =>
    obtain ⟨⟨target, value⟩, later⟩ := List.forall_mem_cons.1 fits
    refine (ih later).next fun _ => ?_
    obtain ⟨t, v⟩ := a
    cases target with
    | cell other => exact paired_update fun h h' alike => alike.setCell other value
    | entry table key =>
      exact (Operand.paired_get table).bind fun o object =>
        (Operand.paired_get key).bind fun k fits =>
          Value.paired_setIndex lawful site object fits value
    | global said => exact lawful.assignGlobal _ v site said value

end CallGuard.Lua
