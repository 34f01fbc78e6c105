import CallGuard.Proofs.Lua.Paired.Execution
import CallGuard.Proofs.Lua.Paired.Library.Natives

set_option autoImplicit false

namespace CallGuard.Lua

open Routine

variable {p : Pairing}

theorem paired_bodyThen (lawful : p.Lawful) {s : Scope} (scope : s.Fits p) {body : List Stmt}
    (said : p.Speaks (Block.mentions body)) {next next' : Routine Completion}
    (goOn : next.Paired p next' p.ofCompletion) :
    (execBlock s body >>= afterBody next).Paired p
      (execBlock (s.rename p.move) body >>= afterBody next') p.ofCompletion :=
  (paired_body lawful scope said).bind fun c ended => by
    cases c with
    | normal s => exact goOn
    | _ => exact paired_pure ⟨ended, rfl⟩

theorem paired_switchTask {t : Task} (fits : t.Fits p) :
    (switch t : Routine Completion).Paired p (switch (t.rename p.move) : Routine Completion)
      p.ofCompletion :=
  paired_switch (.same fits)

theorem Pairing.Speaks.afterLabel? {label : String} {block target : List Stmt}
    (said : p.Speaks (Block.mentions block))
    (found : Stmt.afterLabel? label block = some target) : p.Speaks (Block.mentions target) := by
  induction block using Stmt.afterLabel?.induct label with
  | case1 => simp [Stmt.afterLabel?] at found
  | case2 rest =>
    rw [Block.mentions, Pairing.speaks_append] at said
    simp only [Stmt.afterLabel?, if_true, Option.some.injEq] at found
    exact found ▸ said.2
  | case3 n rest other ih =>
    rw [Block.mentions, Pairing.speaks_append] at said
    simp only [Stmt.afterLabel?, other, if_false] at found
    exact ih said.2 found
  | case4 st rest noLabel ih =>
    rw [Block.mentions, Pairing.speaks_append] at said
    rw [Stmt.afterLabel?] at found
    · exact ih said.2 found
    · exact noLabel

section

variable (lawful : p.Lawful)

include lawful

theorem paired_iterate {names : List String} {f f' state control : Value} {body : List Stmt}
    {line : Nat} {s : Scope} (bound : p.Speaks (names.map (⟨·, .bound⟩)))
    (inside : p.Speaks (Block.mentions body)) (scope : s.Fits p)
    (stepped : (f.call [state, control] (.onLine line)).Paired p
      (f'.call [state.rename p.move, control.rename p.move] (.onLine line)) p.ofValues)
    (again : ∀ key : Value, key.Fits p →
      (Task.iterate names f state key body line s).Paired p
        (.iterate names f' (state.rename p.move) (key.rename p.move) body line
          (s.rename p.move))) :
    (Task.iterate names f state control body line s).round.Paired p
      (Task.iterate names f' (state.rename p.move) (control.rename p.move) body line
        (s.rename p.move)).round p.ofCompletion := by
  refine stepped.bind fun vs values => ?_
  dsimp only
  rw [firstOf_rename, Value.isNil_rename, adjust_rename]
  refine paired_ite Iff.rfl (paired_normal scope) ?_
  refine (paired_bindAll lawful.named bound (values.adjust _) scope).bind fun inner around => ?_
  exact paired_bodyThen lawful around inside (paired_switch (again _ values.firstOf))

theorem Task.paired_round {t t' : Task} (task : t.Paired p t') :
    t.round.Paired p t'.round p.ofCompletion := by
  cases task with
  | steps bound steps table key inside scope =>
    exact paired_iterate lawful bound inside scope
      (lawful.step _ _ _ _ (.onLine _) steps table key)
      fun _ fits => .steps bound steps table fits inside scope
  | same fits =>
    cases t with
    | whileLoop test body s =>
      obtain ⟨tested, inside, scope⟩ := fits
      refine (paired_single (paired_eval lawful scope test tested)).bind fun v _ => ?_
      refine paired_ite (by rw [Value.truth_rename]) (paired_normal scope) ?_
      exact paired_bodyThen lawful scope inside (paired_switchTask ⟨tested, inside, scope⟩)
    | repeatLoop body test s =>
      obtain ⟨tested, inside, scope⟩ := fits
      refine (paired_body lawful scope inside).bind fun c ended => ?_
      cases c with
      | normal inner =>
        refine (paired_single (paired_eval lawful ended test tested)).bind fun v _ => ?_
        exact paired_ite (by rw [Value.truth_rename]) (paired_normal scope)
          (paired_switchTask ⟨tested, inside, scope⟩)
      | _ => exact paired_pure ⟨ended, rfl⟩
    | count name i step left body s =>
      obtain ⟨bound, inside, scope⟩ := fits
      cases left with
      | zero => exact paired_normal scope
      | succ left =>
        have first : Values.Fits p [.int i] := by simp
        refine (paired_bindAll lawful.named (by simpa using bound) first scope).bind
          fun inner around => ?_
        exact paired_bodyThen lawful around inside (paired_switchTask ⟨bound, inside, scope⟩)
    | countFloat name x step limit body s =>
      obtain ⟨bound, inside, scope⟩ := fits
      have first : Values.Fits p [.float x] := by simp
      refine (paired_bindAll lawful.named (by simpa using bound) first scope).bind
        fun inner around => ?_
      exact paired_bodyThen lawful around inside (paired_ite Iff.rfl (paired_normal scope)
        (paired_switchTask ⟨bound, inside, scope⟩))
    | iterate names f state control body line s =>
      obtain ⟨bound, function, table, key, inside, scope⟩ := fits
      have args : Values.Fits p [state, control] := by simpa using And.intro table key
      exact paired_iterate lawful bound inside scope
        (Value.paired_call lawful (.onLine line) function args)
        fun _ fits => .same ⟨bound, function, table, fits, inside, scope⟩
    | labelled block rest outer s =>
      obtain ⟨around, said, scope⟩ := fits
      refine (paired_execAll lawful scope rest said).bind fun c ended => ?_
      cases c with
      | jumped label now =>
        dsimp only [Completion.rename]
        cases found : Stmt.afterLabel? label block with
        | none => exact paired_pure ⟨ended, rfl⟩
        | some target =>
          exact paired_switchTask ⟨around, around.afterLabel? found, Scope.Fits.keep ended _⟩
      | _ => exact paired_pure ⟨ended, rfl⟩

theorem Closure.paired_body {c : Closure} (closure : c.Fits p) {args : List Value}
    (fits : Values.Fits p args) :
    (c.body args).Paired p (c.body (Values.rename p.move args)) p.ofCompletion := by
  obtain ⟨⟨params, isVararg, body⟩, captured⟩ := c
  obtain ⟨said, binds⟩ := closure
  rw [Function.mentions, Pairing.speaks_append] at said
  have scope : (Scope.mk [] captured (if isVararg then args.drop params.length else [])).Fits p :=
    ⟨List.forall_mem_nil _, binds, by split <;> simp [fits.drop]⟩
  have moved : (Scope.mk [] captured
      (if isVararg then (Values.rename p.move args).drop params.length else [])) =
      (Scope.mk [] captured (if isVararg then args.drop params.length else [])).rename p.move := by
    simp only [Scope.rename]
    split <;> simp [List.map_drop]
  unfold Closure.body
  dsimp only
  rw [moved]
  exact (paired_bindAll lawful.named said.1 fits scope).bind fun s around =>
    Lua.paired_body lawful around said.2

end

end CallGuard.Lua
