import CallGuard.Proofs.Lua.Views.Laws

set_option autoImplicit false

namespace CallGuard.Lua

open Routine

namespace State.Placement

variable {s : State} {name : String} {j : Json} (c : s.Placement name j) {env : Nat}

theorem global_fits (env : Nat) {n : String} (other : n ≠ name) :
    (s.heap.rawGet c.names (.named n)).rename c.move = s.heap.rawGet c.names (.named n) ∧
      ((s.heap.rawGet c.names (.named n)).Fits (c.pairing env) ∨
        n = "pairs" ∧ s.heap.rawGet c.names (.named n) = .native (.base .pairs)) := by
  obtain ⟨t, found, -, -, entries⟩ := c.orderly.named
  rw [Heap.rawGet_eq found]
  rcases entries (.named n) fun same => other (Key.named_injective same) with leads | ⟨same, value⟩
  · exact ⟨c.rename_leads leads, .inl (c.fits_leads leads)⟩
  · rw [value]
    exact ⟨rfl, .inr ⟨Key.named_injective same, rfl⟩⟩

theorem named_alike {h h' : Heap} (alike : (c.pairing env).Alike h h') (k : Key) :
    h.rawGet c.names k = s.heap.rawGet c.names k ∧
      h'.rawGet c.names k = s.heap.rawGet c.names k := by
  have beside : c.Beside env h.tables h'.tables := alike.beside
  exact ⟨Heap.rawGet_congr beside.names.1 k, Heap.rawGet_congr beside.names.2 k⟩

theorem lookup_settles {h : Heap} {n : String} (o : Value)
    (same : h.rawGet c.names (.named n) = s.heap.rawGet c.names (.named n))
    (known : (s.heap.rawGet c.names (.named n)).isNil = false ∨ n ∈ c.optional) :
    (Library.run s.names [o, .text n] Library.answered h).Settles
      [s.heap.rawGet c.names (.named n)] h := by
  refine Library.settles_run fun k => ?_
  have found : (!(h.rawGet c.names (.named n)).isNil ||
      c.optional.any fun m => Bytes.ofText m == .ofText n) = true := by
    rw [same, Bool.or_eq_true, Library.any_named, Bool.not_eq_true']
    exact known
  rw [c.lookup, Library.lookup_apply, if_pos found, same]

theorem lookup_reports {h : Heap} {n : String} (o : Value)
    (same : h.rawGet c.names (.named n) = s.heap.rawGet c.names (.named n))
    (unknown : ¬((s.heap.rawGet c.names (.named n)).isNil = false ∨ n ∈ c.optional)) :
    Library.run s.names [o, .text n] Library.answered h =
      .fail (Library.undeclared c.support n) h := by
  show Library.perform s.names [o, .text n] _ h = _
  rw [c.lookup, Library.lookup_apply, if_neg]
  rw [same, Bool.or_eq_true, Library.any_named, Bool.not_eq_true']
  exact unknown

theorem readName (later : c.size ≤ env) (n : String) (site : CallSite) :
    ((Value.table env).index (.text n) site).Paired (c.pairing env)
      ((Value.table (c.move env)).index (.text n) site)
      (Carried (Value.rename c.move) fun v =>
        v.Fits (c.pairing env) ∨ n = "pairs" ∧ v = .native (.base .pairs)) := by
  intro K K' h h' alike next
  have beside : c.Beside env h.tables h'.tables := alike.beside
  obtain ⟨t, t', here, there, globals⟩ := beside.globals
  obtain ⟨same, same'⟩ := c.named_alike alike (.named n)
  have found : h.found env (.text n) = t.get (.named n) := Heap.found_eq here rfl
  have found' : h'.found (env + c.count) (.text n) = t'.get (.named n) := Heap.found_eq there rfl
  rw [c.move_new later, Value.index_apply, Value.index_apply, found, found',
    Heap.handlers_eq here, Heap.handlers_eq there, globals.index.1, globals.index.2]
  dsimp only
  by_cases own : n = name
  · subst own
    rw [globals.own.1, globals.own.2]
    have settles {g : Heap} (o : Value) (same : g.rawGet c.names (.named n) = _) :=
      c.lookup_settles o same (.inr c.isOptional)
    have fits : (s.heap.rawGet c.names (.named n)).Fits (c.pairing env) :=
      c.fits_viewed c.viewed
    have both := next (s.heap.rawGet c.names (.named n)) _ h h' ⟨.inl fits, rfl⟩ alike
    rw [show Value.nil.isNil = true from rfl, if_pos rfl, Value.isNil_rename]
    by_cases absent : (s.heap.rawGet c.names (.named n)).isNil = true
    · rw [if_pos absent]
      refine .meet trivial (settles _ same).yields (settles _ same') ?_
      rw [Value.eq_nil_of_isNil absent] at both ⊢
      exact both
    · rw [if_neg absent]
      exact .skip trivial (settles _ same).yields both
  · obtain ⟨fits, renamed⟩ := globals.others n own
    rw [renamed, Value.isNil_rename]
    split
    · obtain ⟨constant, held⟩ := c.global_fits env own
      have both := next (s.heap.rawGet c.names (.named n)) _ h h' ⟨held, rfl⟩ alike
      rw [constant] at both
      by_cases known : (s.heap.rawGet c.names (.named n)).isNil = false ∨ n ∈ c.optional
      · refine .meet trivial (c.lookup_settles _ same known).yields (c.lookup_settles _ same' known) ?_
        exact both
      · -- Both calls end with a report of the variable.
        refine .answer alike ?_ fun vs g g' results alike' =>
          next _ _ g g' ⟨.inl results.firstOf, firstOf_rename vs⟩ alike'
        rw [c.lookup_reports _ same known, c.lookup_reports _ same' known]
        have reported := Turn.Paired.fail (f := Library.undeclared c.support n) alike
        rw [Library.undeclared_rename] at reported
        exact reported
    · exact next _ _ h h' ⟨.inl fits, rfl⟩ alike

theorem readGlobal (later : c.size ≤ env) (n : String) (site : CallSite)
    (said : (c.pairing env).Says ⟨n, .read⟩) :
    ((Value.table env).index (.text n) site).Paired (c.pairing env)
      ((Value.table (c.move env)).index (.text n) site) (c.pairing env).ofValue := by
  refine (c.readName later n site).mono fun v w ⟨held, same⟩ => ⟨held.resolve_right ?_, same⟩
  rintro ⟨rfl, -⟩
  exact said.2.2 rfl

theorem readWalked (later : c.size ≤ env) (n : String) (site : CallSite) :
    ((Value.table env).index (.text n) site).Paired (c.pairing env)
      ((Value.table (c.move env)).index (.text n) site)
      (Carried (Value.rename c.move) fun v =>
        v.Fits (c.pairing env) ∨ v = .native (.base .pairs)) :=
  (c.readName later n site).mono fun _ _ ⟨held, same⟩ => ⟨held.imp_right And.right, same⟩

theorem Globals.set {t t' : Table} (globals : c.Globals env t t') {n : String} (other : n ≠ name)
    {v : Value} (fits : v.Fits (c.pairing env)) :
    c.Globals env (t.set (.named n) v) (t'.set (.named n) (v.rename c.move)) := by
  have law := (globals.tidy.1.setNamed n v).2 (.named name)
  have law' := (globals.tidy.2.setNamed n (v.rename c.move)).2 (.named name)
  have differs : Key.named name ≠ .named n := fun same => other (Key.named_injective same).symm
  rw [if_neg differs] at law law'
  exact ⟨globals.toSameGlobals.set n fits, law ▸ law' ▸ globals.own⟩

theorem Beside.assign {ts ts' : Array Table} (beside : c.Beside env ts ts') (later : c.size ≤ env)
    {n : String} (other : n ≠ name) {v : Value} (fits : v.Fits (c.pairing env)) :
    c.Beside env (ts.modify env (·.set (.named n) v))
      (ts'.modify (c.move env) (·.set (.named n) (v.rename c.move))) := by
  have room := c.room_size
  have below := c.below
  have kept {us : Array Table} (f : Table → Table) {place id : Nat} (differs : place ≠ id) :
      (us.modify place f)[id]? = us[id]? := by
    rw [Array.getElem?_modify, if_neg differs]
  obtain ⟨names, views, copies, t, t', here, there, globals⟩ := beside
  rw [c.move_new later]
  refine ⟨⟨?_, ?_⟩, fun id inside => ?_, fun i bound => ?_, _, _, ?_, ?_,
    globals.set c other fits⟩
  · rw [kept _ (by omega), names.1]
  · rw [kept _ (by omega), names.2]
  · unfold isOutside at inside
    rw [kept _ (by omega), views id inside]
  · rw [kept _ (by omega), copies i bound]
  · rw [Array.getElem?_modify, if_pos rfl, here]
    rfl
  · rw [Array.getElem?_modify, if_pos rfl, there]
    rfl

theorem assignGlobal (later : c.size ≤ env) (n : String) (v : Value) (site : CallSite)
    (said : (c.pairing env).Says ⟨n, .assigned⟩) (fits : v.Fits (c.pairing env)) :
    ((Value.table env).setIndex (.text n) v site).Paired (c.pairing env)
      ((Value.table (c.move env)).setIndex (.text n) (v.rename c.move) site) Eq := by
  intro K K' h h' alike next
  have other : n ≠ name := by
    rintro rfl
    exact said.2.1 rfl
  have beside : c.Beside env h.tables h'.tables := alike.beside
  have changed := beside.assign c later other fits
  obtain ⟨t, t', here, there, globals⟩ := beside.globals
  rw [← c.move_new later] at there
  have own : ¬ (c.pairing env).Mirrored env := fun mirrored => mirrored.2.2 rfl
  exact alike.paired_assign c.move_injective own here there globals.newIndex site changed
    fun g g' alike => next () () g g' rfl alike

section

variable (later : c.size ≤ env)

include later

theorem index_view {id : TableId} (shows : (c.pairing env).Shows id)
    (other : ¬ (c.pairing env).Mirrored id) (k : Value) (site : CallSite) :
    ((Value.table id).index k site).Paired (c.pairing env)
      ((Value.table (c.move id)).index (k.rename c.move) site) (c.pairing env).ofValue := by
  intro K K' h h' alike next
  obtain ⟨i, bound, rfl⟩ := (c.mirrored_or_view later shows).resolve_left other
  obtain ⟨t, seen⟩ := c.seen alike bound
  rw [c.move_view bound]
  exact seen.index k site (next _ _ h h' ⟨(seen.found k).1, rfl⟩ alike)

theorem setIndex_view {id : TableId} (shows : (c.pairing env).Shows id)
    (other : ¬ (c.pairing env).Mirrored id) (k v : Value) (site : CallSite) :
    ((Value.table id).setIndex k v site).Paired (c.pairing env)
      ((Value.table (c.move id)).setIndex (k.rename c.move) (v.rename c.move) site) Eq := by
  intro K K' h h' alike next
  obtain ⟨i, bound, rfl⟩ := (c.mirrored_or_view later shows).resolve_left other
  obtain ⟨t, seen⟩ := c.seen alike bound
  exact seen.setIndex k v site K _

theorem length_view {id : TableId} (shows : (c.pairing env).Shows id)
    (other : ¬ (c.pairing env).Mirrored id) (site : CallSite) :
    ((Value.table id).length site).Paired (c.pairing env)
      ((Value.table (c.move id)).length site) (c.pairing env).ofValue := by
  intro K K' h h' alike next
  obtain ⟨i, bound, rfl⟩ := (c.mirrored_or_view later shows).resolve_left other
  obtain ⟨t, seen⟩ := c.seen alike bound
  rw [c.move_view bound]
  exact seen.length site (next _ _ h h' ⟨int_fits _, rfl⟩ alike)

theorem walk_view {id : TableId} {args : List Value} (first : Library.Args.value args 1 = .table id)
    (other : ¬ (c.pairing env).Mirrored id) (fits : Values.Fits (c.pairing env) args)
    (site : CallSite) :
    (call (.native (.base .pairs)) args site).Paired (c.pairing env)
      (call (.native (.base .pairs)) (Values.rename c.move args) site) (c.pairing env).Loops := by
  intro K K' h h' alike next
  have shows : (Value.table id).Fits (c.pairing env) := first ▸ Library.Args.value_fits fits 1
  obtain ⟨i, bound, rfl⟩ := (c.mirrored_or_view later shows).resolve_left other
  obtain ⟨t, seen⟩ := c.seen alike bound
  have place : (Value.table (c.start + 2 * i + 1)).rename c.move = .table (c.size + i) :=
    congrArg Value.table (c.move_view bound)
  have moved : Library.Args.value (Values.rename c.move args) 1 = .table (c.size + i) := by
    rw [Library.Args.value_rename, first, place]
  apply seen.walk site first moved
  apply next _ _ h h' _ alike
  rw [← place]
  exact .steps ⟨i, bound, rfl, rfl, rfl⟩ shows

omit later in
theorem step_view {f f' state control : Value} (steps : (c.pairing env).Steps f f' state)
    (site : CallSite) :
    (f.call [state, control] site).Paired (c.pairing env)
      (f'.call [state.rename c.move, control.rename c.move] site) (c.pairing env).ofValues := by
  obtain ⟨i, bound, rfl, rfl, rfl⟩ := steps
  have place : (Value.table (c.start + 2 * i + 1)).rename c.move = .table (c.size + i) :=
    congrArg Value.table (c.move_view bound)
  rw [place]
  have advance (key : Option Key) : (do
      let first := firstOf (← Library.entryAfter (c.start + 2 * i) key)
      if first.isNil then return [.nil]
      else return [first, ← (Value.table (c.start + 2 * i + 1)).index first .native]
      : Routine (List Value)).Paired (c.pairing env)
      (Library.entryAfter (c.size + i) (key.map (Key.rename c.move))) (c.pairing env).ofValues := by
    intro K K' h h' alike next
    obtain ⟨t, seen⟩ := c.seen alike bound
    exact seen.step key alike fun vs fits => next vs _ h h' ⟨fits, rfl⟩ alike
  have performed :
      (Library.viewStep (c.start + 2 * i) (c.start + 2 * i + 1) c.support control).Paired
        (c.pairing env) (Library.nextEntry (c.size + i) (control.rename c.move))
        (c.pairing env).ofValues := by
    unfold Library.viewStep
    rw [c.canStep]
    by_cases absent : control.isNil = true
    · rw [Value.eq_nil_of_isNil absent]
      exact advance none
    · rw [Bool.not_eq_true] at absent
      rw [Library.nextEntry_eq _ absent, Library.nextEntry_eq _ (by rwa [Value.isNil_rename]),
        Value.toKey?_rename]
      cases control.toKey? with
      | none => exact paired_invalid
      | some key => exact advance (some key)
  have whole : (Library.perform (.viewStep (c.start + 2 * i) (c.start + 2 * i + 1) c.support)
      [.table (c.start + 2 * i + 1), control]).Paired (c.pairing env)
      (Library.perform (.base .next) [.table (c.size + i), control.rename c.move])
      (c.pairing env).ofValues := performed
  refine paired_answer site (Library.paired_spent ?_ whole)
  rw [← place]
  exact byteCounts_rename [_, control]

theorem takes_clear {h h' : Heap} (alike : (c.pairing env).Alike h h') {n : Native}
    {args : List Value} (callee : n.Fits (c.pairing env)) (fits : Values.Fits (c.pairing env) args)
    (clear : ¬ avoids n args h) : n.Takes (c.pairing env) args := by
  cases n with
  | base f =>
    cases f with
    | toString => exact Bool.eq_false_iff.2 clear
    | pairs => exact callee.elim
    | next =>
      intro id first
      by_contra other
      have shows : (Value.table id).Fits (c.pairing env) := first ▸ Library.Args.value_fits fits 1
      obtain ⟨i, bound, rfl⟩ := (c.mirrored_or_view later shows).resolve_left other
      obtain ⟨t, seen⟩ := c.seen alike bound
      apply clear
      simp only [avoids, first, seen.viewHandlers]
      rfl
    | _ => trivial
  | string f =>
    cases f with
    | format => simpa [avoids, Native.Takes] using clear
    | _ => trivial
  | viewNewIndex => exact absurd rfl clear
  | _ => trivial

theorem pairing_lawful : (c.pairing env).Lawful where
  injective := c.move_injective
  made id new := by
    have beyond : c.size ≤ id := by
      have fresh : env + 1 ≤ id := new
      omega
    have other : id ≠ env := by
      have fresh : env + 1 ≤ id := new
      omega
    exact ⟨c.move_new beyond, c.mirrored_new beyond other⟩
  besidePush beside fresh size t t' := c.beside_push beside later fresh size t t'
  besideModify beside id mirrored shows f f' := c.beside_modify beside later mirrored shows f f'
  named _ said := said.1
  clear alike n args callee fits clear := c.takes_clear later alike callee fits clear
  index id k site shows other _ := c.index_view later shows other k site
  setIndex id k v site shows other _ _ := c.setIndex_view later shows other k v site
  length id site shows other := c.length_view later shows other site
  readGlobal n site said := c.readGlobal later n site said
  readWalked n site _ := c.readWalked later n site
  assignGlobal n v site said fits := c.assignGlobal later n v site said fits
  walk id args site first other fits := c.walk_view later first other fits site
  step f f' state control site steps _ _ := c.step_view steps site

end

end State.Placement

end CallGuard.Lua
