import CallGuard.Proofs.Lua.Paired.Evaluation
import CallGuard.Proofs.Lua.Paired.Library.Base

set_option autoImplicit false

namespace CallGuard.Lua

open Routine

variable {p : Pairing}

theorem paired_afterLoop {s : Scope} (scope : s.Fits p) {r r' : Routine Completion}
    (paired : r.Paired p r' p.ofCompletion) :
    (do return afterLoop s (← r)).Paired p (do return afterLoop (s.rename p.move) (← r'))
      p.ofCompletion := by
  refine paired.bind fun c ended => paired_pure ?_
  cases c with
  | normal _ => exact ⟨scope, rfl⟩
  | left => exact ⟨scope, rfl⟩
  | _ => exact ⟨ended, rfl⟩

theorem paired_afterBlock {s : Scope} (scope : s.Fits p) {r r' : Routine Completion}
    (paired : r.Paired p r' p.ofCompletion) :
    (do return afterBlock s (← r)).Paired p (do return afterBlock (s.rename p.move) (← r'))
      p.ofCompletion := by
  refine paired.bind fun c ended => paired_pure ?_
  cases c with
  | normal _ => exact ⟨scope, rfl⟩
  | _ => exact ⟨ended, rfl⟩

theorem paired_normal {s : Scope} (scope : s.Fits p) :
    (pure (.normal s) : Routine Completion).Paired p (pure (.normal (s.rename p.move)))
      p.ofCompletion :=
  paired_pure ⟨scope, rfl⟩

theorem paired_enterTask {t : Task} (fits : t.Fits p) :
    (enter t).Paired p (enter (t.rename p.move)) p.ofCompletion :=
  paired_enter (.same fits)

theorem startRange_rename (move : TableId → TableId) (name : String) (body : List Stmt) (s : Scope)
    (start limit step : Value) :
    startRange name body s (start.rename move) (limit.rename move) (step.rename move) =
      startRange name body s start limit step := by
  unfold startRange
  rw [Value.toNum?_rename]
  cases start <;> cases step <;> rfl

theorem paired_startRange {name : String} (bound : p.Says ⟨name, .bound⟩) {body : List Stmt}
    (inside : p.Speaks (Block.mentions body)) {s : Scope} (scope : s.Fits p)
    (start limit step : Value) :
    (startRange name body s start limit step).Paired p
      (startRange name body (s.rename p.move) (start.rename p.move) (limit.rename p.move)
        (step.rename p.move)) p.ofCompletion := by
  rw [startRange_rename]
  unfold startRange
  split
  · refine paired_unless Iff.rfl ((paired_sameOption rfl).next fun l => ?_)
    split
    · exact paired_normal scope
    · exact paired_enterTask ⟨bound, inside, scope⟩
  · refine (paired_sameOption rfl).next fun limit => (paired_sameOption rfl).next fun step =>
      (paired_sameOption rfl).next fun start => paired_unless Iff.rfl ?_
    exact paired_ite Iff.rfl (paired_normal scope) (paired_enterTask ⟨bound, inside, scope⟩)

theorem paired_execBlock {s : Scope} (scope : s.Fits p) {body : List Stmt}
    (said : p.Speaks (Block.mentions body))
    (all : (execAll s body).Paired p (execAll (s.rename p.move) body) p.ofCompletion) :
    (execBlock s body).Paired p (execBlock (s.rename p.move) body) p.ofCompletion := by
  rw [execBlock, execBlock]
  exact paired_ite Iff.rfl (paired_enterTask ⟨said, said, scope⟩) all

section

variable (lawful : p.Lawful) {s : Scope} (scope : s.Fits p)

include lawful scope

theorem paired_assign (targets values : List Expr) (line : Nat)
    (said : p.Speaks (Targets.mentions targets ++ Exprs.mentions values)) :
    (exec s (.assign targets values line)).Paired p
      (exec (s.rename p.move) (.assign targets values line)) p.ofCompletion := by
  rw [Pairing.speaks_append] at said
  rw [exec, exec]
  refine (paired_evalTargets lawful scope targets said.1).bind fun ts found => ?_
  refine (paired_settleAll found).bind fun ts settled => ?_
  refine (paired_evalList lawful scope values said.2).bind fun vs fits => ?_
  have moved : (ts.map (Target.rename p.move)).zip
      (adjust (ts.map (Target.rename p.move)).length (Values.rename p.move vs)) =
      (ts.zip (adjust ts.length vs)).map (Assignment.rename p.move) := by
    rw [List.length_map, adjust_rename, List.zip_map]
    rfl
  rw [moved]
  refine (paired_assignAll lawful _ fun a member => ?_).next fun _ => paired_normal scope
  obtain ⟨target, value⟩ := List.of_mem_zip member
  exact ⟨settled _ target, fits.adjust ts.length _ value⟩

theorem paired_heads (values : List Expr) (said : p.Speaks (Heads.mentions values)) :
    (evalList s values).Paired p (evalList (s.rename p.move) values) p.Loops := by
  unfold Heads.mentions at said
  split at said
  · next n nameLine args line =>
    rw [Pairing.speaks_cons] at said
    rw [evalList, evalList, eval, eval]
    have callee : (single (eval s (.name n nameLine))).Paired p
        (single (eval (s.rename p.move) (.name n nameLine)))
        (Carried (Value.rename p.move) fun v => v.Fits p ∨ v = .native (.base .pairs)) := by
      rw [eval, eval]
      exact paired_variable scope (lawful.named _ said.1) nameLine (fun _ => Or.inl)
        (lawful.readWalked n (.onLine nameLine) said.1)
    refine callee.bind fun f held => (paired_evalList lawful scope args said.2).bind
      fun vs fits => ?_
    rcases held with held | rfl
    · exact (Value.paired_call lawful (.onLine line) held fits).mono
        fun vs _ carried => carried.2 ▸ .same carried.1
    · by_cases mirrored : ∀ id, Library.Args.value vs 1 = .table id → p.Mirrored id
      · have performed : (Library.perform (.base .pairs) vs).Paired p
            (Library.perform (.base .pairs) (Values.rename p.move vs)) p.ofValues :=
          Library.paired_pairs lawful fits mirrored
        have same := Library.paired_spent (byteCounts_rename vs) performed
        exact (paired_answer (.onLine line) same).mono fun vs _ carried =>
          carried.2 ▸ .same carried.1
      · push Not at mirrored
        obtain ⟨id, first, other⟩ := mirrored
        exact lawful.walk id vs (.onLine line) first other fits
  · exact (paired_evalList lawful scope values said).mono
      fun vs _ carried => carried.2 ▸ .same carried.1

omit lawful scope in
theorem adjust_four (vs : List Value) : ∃ f state control closing,
    adjust 4 vs = [f, state, control, closing] := by
  rcases vs with _ | ⟨f, _ | ⟨state, _ | ⟨control, _ | ⟨closing, rest⟩⟩⟩⟩ <;> simp [adjust]

theorem paired_forEach (names : List String) (values : List Expr) (body : List Stmt) (line : Nat)
    (bound : p.Speaks (names.map (⟨·, .bound⟩))) (said : p.Speaks (Heads.mentions values))
    (inside : p.Speaks (Block.mentions body)) :
    (exec s (.forEach names values body line)).Paired p
      (exec (s.rename p.move) (.forEach names values body line)) p.ofCompletion := by
  rw [exec, exec]
  refine (paired_heads lawful scope values said).bindAny fun vs vs' loops => ?_
  cases loops with
  | same fits =>
    obtain ⟨f, state, control, closing, is⟩ := adjust_four vs
    have controls := fits.adjust 4
    rw [is] at controls
    simp only [values_cons_fit] at controls
    obtain ⟨function, table, key, -⟩ := controls
    simp only [adjust_rename, is, List.map_cons, List.map_nil]
    refine paired_unless (by rw [Value.truth_rename]) (paired_afterLoop scope ?_)
    exact paired_enterTask ⟨bound, function, table, key, inside, scope⟩
  | steps steps table =>
    exact paired_unless Iff.rfl (paired_afterLoop scope
      (paired_enter (.steps bound steps table nil_fits inside scope)))

theorem paired_ret (values : List Expr) (said : p.Speaks (Exprs.mentions values)) :
    (exec s (.ret values)).Paired p (exec (s.rename p.move) (.ret values)) p.ofCompletion := by
  have plain : (do return .returned (← evalList s values) : Routine Completion).Paired p
      (do return .returned (← evalList (s.rename p.move) values) : Routine Completion)
      p.ofCompletion :=
    (paired_evalList lawful scope values said).bind fun vs fits => paired_pure ⟨fits, rfl⟩
  -- only a single call or method call is handed to the machine
  rcases values with _ | ⟨e, _ | ⟨e', rest⟩⟩
  · rw [exec, exec] <;> first | exact plain | simp
  · rw [Exprs.mentions, Pairing.speaks_append] at said
    cases e with
    | call f args line =>
      rw [Expr.mentions, Pairing.speaks_append] at said
      rw [exec, exec]
      refine (paired_single (paired_eval lawful scope f said.1.1)).bind fun g callee => ?_
      exact (paired_evalList lawful scope args said.1.2).bind fun vs fits =>
        paired_pure ⟨⟨callee, fits⟩, rfl⟩
    | method object name args nameLine line =>
      rw [Expr.mentions, Pairing.speaks_append] at said
      rw [exec, exec]
      refine (paired_single (paired_eval lawful scope object said.1.1)).bind fun o value => ?_
      refine (Value.paired_index lawful (.onLine nameLine) value (text_fits name)).bind
        fun f callee => ?_
      refine (paired_evalList lawful scope args said.1.2).bind fun vs fits =>
        paired_pure ⟨⟨callee, ?_⟩, rfl⟩
      exact (values_cons_fit o vs).2 ⟨value, fits⟩
    | _ => rw [exec, exec] <;> first | exact plain | simp
  · rw [exec, exec] <;> first | exact plain | simp

theorem paired_locals (names : List (String × Attribute)) (values : List Expr)
    (bound : p.Speaks (names.map (⟨·.1, .bound⟩))) (said : p.Speaks (Exprs.mentions values)) :
    (exec s (.locals names values)).Paired p (exec (s.rename p.move) (.locals names values))
      p.ofCompletion := by
  rw [exec, exec]
  refine (paired_evalList lawful scope values said).bind fun vs fits => ?_
  rw [adjust_rename]
  have same : ((names.zip (adjust names.length vs)).all fun e => closable e.1.2 e.2) =
      (names.zip (Values.rename p.move (adjust names.length vs))).all fun e =>
        closable e.1.2 e.2 := by
    simp [List.zip_map_right, List.all_map, Function.comp_def, closable]
  have each : p.Speaks ((names.map (·.1)).map (⟨·, .bound⟩)) := by
    rw [List.map_map]
    exact bound
  refine paired_unless (iff_of_eq (congrArg (fun all => (!all) = true) same)) ?_
  exact (paired_bindAll lawful.named each (fits.adjust _) scope).bind
    fun s scope => paired_normal scope

theorem paired_localFunction (name : String) (f : Function) (bound : p.Says ⟨name, .bound⟩)
    (said : p.Speaks f.mentions) :
    (exec s (.localFunction name f)).Paired p (exec (s.rename p.move) (.localFunction name f))
      p.ofCompletion := by
  have named := lawful.named _ bound
  rw [exec, exec]
  refine (paired_bindAll lawful.named (by simpa using bound) no_values_fit scope).bind
    fun s scope => ?_
  refine (paired_newClosure scope said).bind fun v value => ?_
  have same : (s.rename p.move).find? name = s.find? name := rfl
  rw [same]
  cases found : s.find? name with
  | none => exact paired_normal scope
  | some c =>
    have other : c ≠ p.envCell := fun env => named ((scope.find? found).2 env)
    have set : (update fun h => h.setCell c v).Paired p
        (update fun h => h.setCell c (v.rename p.move)) Eq :=
      paired_update fun h h' alike => alike.setCell other value
    exact set.next fun _ => paired_normal scope

end

mutual

theorem paired_exec (lawful : p.Lawful) {s : Scope} (scope : s.Fits p) :
    ∀ st : Stmt, p.Speaks st.mentions →
      (exec s st).Paired p (exec (s.rename p.move) st) p.ofCompletion
  | .assign targets values line, said => by
    rw [Stmt.mentions] at said
    exact paired_assign lawful scope targets values line said
  | .call e, said => by
    rw [Stmt.mentions] at said
    rw [exec, exec]
    exact (paired_eval lawful scope e said).discard.next fun _ => paired_normal scope
  | .block body, said => by
    rw [Stmt.mentions] at said
    rw [exec, exec]
    exact paired_afterBlock scope
      (paired_execBlock scope said (paired_execAll lawful scope body said))
  | .whileLoop test body, said => by
    rw [Stmt.mentions, Pairing.speaks_append] at said
    rw [exec, exec]
    exact paired_afterLoop scope (paired_enterTask ⟨said.1, said.2, scope⟩)
  | .repeatLoop body test, said => by
    rw [Stmt.mentions, Pairing.speaks_append] at said
    rw [exec, exec]
    exact paired_afterLoop scope (paired_enterTask ⟨said.2, said.1, scope⟩)
  | .cond test yes no, said => by
    rw [Stmt.mentions, Pairing.speaks_append, Pairing.speaks_append] at said
    obtain ⟨⟨tested, first⟩, second⟩ := said
    rw [exec, exec]
    refine (paired_single (paired_eval lawful scope test tested)).bind fun t _ => ?_
    refine paired_ite (by rw [Value.truth_rename]) ?_ ?_
    · exact paired_afterBlock scope
        (paired_execBlock scope first (paired_execAll lawful scope yes first))
    · exact paired_afterBlock scope
        (paired_execBlock scope second (paired_execAll lawful scope no second))
  | .forRange name start limit none body, said => by
    simp only [Stmt.mentions, List.cons_append, Pairing.speaks_cons, Pairing.speaks_append] at said
    obtain ⟨bound, ⟨first, last⟩, inside⟩ := said
    rw [exec, exec]
    refine (paired_single (paired_eval lawful scope start first)).bind fun i _ => ?_
    refine (paired_single (paired_eval lawful scope limit last)).bind fun l _ => ?_
    exact paired_afterLoop scope (paired_startRange bound inside scope i l (.int 1))
  | .forRange name start limit (some step) body, said => by
    simp only [Stmt.mentions, List.cons_append, Pairing.speaks_cons, Pairing.speaks_append] at said
    obtain ⟨bound, ⟨⟨first, last⟩, third⟩, inside⟩ := said
    rw [exec, exec]
    refine (paired_single (paired_eval lawful scope start first)).bind fun i _ => ?_
    refine (paired_single (paired_eval lawful scope limit last)).bind fun l _ => ?_
    refine (paired_single (paired_eval lawful scope step third)).bind fun d _ => ?_
    exact paired_afterLoop scope (paired_startRange bound inside scope i l d)
  | .forEach names values body line, said => by
    rw [Stmt.mentions, Pairing.speaks_append, Pairing.speaks_append] at said
    exact paired_forEach lawful scope names values body line said.1.1 said.1.2 said.2
  | .locals names values, said => by
    rw [Stmt.mentions, Pairing.speaks_append] at said
    exact paired_locals lawful scope names values said.1 said.2
  | .localFunction name f, said => by
    rw [Stmt.mentions, Pairing.speaks_cons] at said
    exact paired_localFunction lawful scope name f said.1 said.2
  | .ret values, said => by
    rw [Stmt.mentions] at said
    exact paired_ret lawful scope values said
  | .leave, _ => by
    rw [exec, exec]
    exact paired_pure ⟨trivial, rfl⟩
  | .goto target, _ => by
    rw [exec, exec]
    exact paired_pure ⟨scope, rfl⟩
  | .label _, _ => by
    rw [exec, exec]
    exact paired_normal scope

theorem paired_execAll (lawful : p.Lawful) {s : Scope} (scope : s.Fits p) :
    ∀ body : List Stmt, p.Speaks (Block.mentions body) →
      (execAll s body).Paired p (execAll (s.rename p.move) body) p.ofCompletion
  | [], _ => by
    rw [execAll, execAll]
    exact paired_normal scope
  | st :: rest, said => by
    rw [Block.mentions, Pairing.speaks_append] at said
    rw [execAll, execAll]
    refine (paired_exec lawful scope st said.1).bind fun c ended => ?_
    cases c with
    | normal s => exact paired_execAll lawful ended rest said.2
    | _ => exact paired_pure ⟨ended, rfl⟩

end

theorem paired_body (lawful : p.Lawful) {s : Scope} (scope : s.Fits p) {body : List Stmt}
    (said : p.Speaks (Block.mentions body)) :
    (execBlock s body).Paired p (execBlock (s.rename p.move) body) p.ofCompletion :=
  paired_execBlock scope said (paired_execAll lawful scope body said)

end CallGuard.Lua
