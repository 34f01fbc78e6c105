import CallGuard.Proofs.Cel.Evaluation
import CallGuard.Proofs.Cel.Scope
import CallGuard.Proofs.Cel.Wording
import CallGuard.Proofs.Cel.Written

set_option autoImplicit false

namespace CallGuard.Cel

def Env.Covers (env : Env) (scope : List String) : Prop :=
  ∀ name ∈ scope, (env.lookup name).isSome = true

namespace Env.Covers

variable {env : Env} {scope : List String}

theorem skip (covers : env.Covers scope) (name : String) (v : Value) :
    Env.Covers ((name, v) :: env) scope := by
  intro other member
  rw [List.lookup_cons]
  split
  · rfl
  · exact covers other member

theorem bind (covers : env.Covers scope) (name : String) (v : Value) :
    Env.Covers ((name, v) :: env) (name :: scope) := by
  intro other member
  rcases List.mem_cons.1 member with rfl | member
  · simp
  · exact covers.skip name v other member

theorem under (covers : env.Covers scope) (last : Env) : Env.Covers (last ++ env) scope := by
  induction last with
  | nil => exact covers
  | cons entry rest ih => exact ih.skip entry.1 entry.2

end Env.Covers

section

variable {S : Stop → Prop} {item accu : String} {cond step : Env → Result Value} {base : Env}
  {scope : List String}

theorem iterate_raises (covers : base.Covers scope)
    (tests : ∀ env : Env, env.Covers [accu] → Raises S (cond env))
    (steps : ∀ env : Env, env.Covers (item :: accu :: scope) → Raises S (step env))
    (last : Env) (a : Value) (items : List Value) :
    Raises S (iterate item accu cond step base last a items) := by
  induction items generalizing last a with
  | nil => exact raises_ok _
  | cons v vs ih =>
    have nothing : Env.Covers (last ++ base) [] := by simp [Env.Covers]
    have test := tests _ (nothing.bind accu a)
    have goesOn := steps _ ((covers.bind accu a).bind item v)
    rw [iterate_cons]
    refine test.bind fun c => ?_
    split
    · exact goesOn.bind fun b => ih _ _
    · exact raises_ok _

theorem iterate_covers (covers : base.Covers scope) {last env : Env} {a : Value}
    {items : List Value} (ends : iterate item accu cond step base last a items = .ok env) :
    env.Covers (accu :: scope) := by
  induction items generalizing last a with
  | nil =>
    cases ends
    exact (covers.under last).bind accu a
  | cons v vs ih =>
    simp only [iterate] at ends
    split at ends
    · cases ends
    · split at ends
      · cases ends
        exact (covers.under last).bind accu a
      · split at ends
        · cases ends
        · exact ih ends

end

open CallGuard.Cel.Expr

inductive Calls : Expr → String → Prop
  | call (function : String) (args : List Expr) : Calls (.call function args) function
  | method (target : Expr) (function : String) (args : List Expr) :
    Calls (.method target function args) function
  | inside (e part : Expr) (names : List String) (function : String)
      (member : (names, part) ∈ parts e) (calls : Calls part function) :
    Calls e function

-- A missing reference only where a function is called that is none.
inductive MayStop (e : Expr) : Stop → Prop
  | plain (s : Stop) (own : s.IsPlain) : MayStop e s
  | crash : MayStop e .crash
  | unknown (function : String) (calls : Calls e function)
      (missing : Builtin.ofName? function = none) :
    MayStop e (.fault (.undeclared function))

theorem MayStop.allowed (e : Expr) : Allows (MayStop e) := ⟨.plain, .crash⟩

theorem MayStop.of_part {e part : Expr} {names : List String} (member : (names, part) ∈ parts e)
    (s : Stop) (may : MayStop part s) : MayStop e s := by
  cases may with
  | plain _ own => exact .plain s own
  | crash => exact .crash
  | unknown function calls missing =>
    exact .unknown function (.inside e part names function member calls) missing

theorem entry_parts {entries : List (Expr × Expr)} {entry : Expr × Expr}
    (member : entry ∈ entries) :
    ([], entry.1) ∈ parts (.map entries) ∧ ([], entry.2) ∈ parts (.map entries) := by
  simp only [parts, List.mem_flatMap]
  exact ⟨⟨entry, member, by simp⟩, entry, member, by simp⟩

theorem loop_part {item accu : String} {range init cond step result part : Expr}
    {names : List String}
    (member : (names, part) ∈ parts (.comprehension item range accu init cond step result))
    (ranges : Written range) (inits : Written init) (conds : Written cond) (steps : Written step)
    (results : Written result) : Written part := by
  obtain ⟨rfl, rfl⟩ | ⟨rfl, rfl⟩ | ⟨rfl, rfl⟩ | ⟨rfl, rfl⟩ | ⟨rfl, rfl⟩ := by
    simpa [parts] using member
  · exact ranges
  · exact inits
  · exact results
  · exact conds
  · exact steps

theorem appended_written {e : Expr} (written : Written e) : Written (appended e) :=
  .binary _ _ _ (.ident _) (.list _ (by simpa using written))

theorem written_part {e part : Expr} {names : List String} (written : Written e)
    (member : (names, part) ∈ parts e) : Written part := by
  cases written with
  | literal | ident => simp [parts] at member
  | select e field operand | has e field operand | unary op e operand =>
    obtain ⟨rfl, rfl⟩ := by simpa [parts] using member
    exact operand
  | binary op a b left right =>
    obtain ⟨rfl, rfl⟩ | ⟨rfl, rfl⟩ := by simpa [parts] using member
    · exact left
    · exact right
  | conditional a b c test yes no =>
    obtain ⟨rfl, rfl⟩ | ⟨rfl, rfl⟩ | ⟨rfl, rfl⟩ := by simpa [parts] using member
    · exact test
    · exact yes
    · exact no
  | call function args all | list args all =>
    obtain ⟨listed, rfl⟩ := by simpa [parts] using member
    exact all _ listed
  | method e function args target all =>
    obtain ⟨rfl, rfl⟩ | ⟨listed, rfl⟩ := by simpa [parts] using member
    · exact target
    · exact all _ listed
  | map entries keys values =>
    obtain ⟨k, v, listed, ⟨rfl, rfl⟩ | ⟨rfl, rfl⟩⟩ := by simpa [parts] using member
    · exact keys _ listed
    · exact values _ listed
  | message fields all =>
    obtain ⟨⟨name, listed⟩, rfl⟩ := by simpa [parts] using member
    exact all _ listed
  | allMacro e p item range test =>
    exact loop_part member range (.literal _) (.unary _ _ (.ident _))
      (.binary _ _ _ (.ident _) test) (.ident _)
  | existsMacro e p item range test =>
    exact loop_part member range (.literal _) (.unary _ _ (.unary _ _ (.ident _)))
      (.binary _ _ _ (.ident _) test) (.ident _)
  | existsOneMacro e p item range test =>
    exact loop_part member range (.literal _) (.literal _)
      (.conditional _ _ _ test (.binary _ _ _ (.ident _) (.literal _)) (.ident _))
      (.binary _ _ _ (.ident _) (.literal _))
  | mapMacro e f item range image =>
    exact loop_part member range (.list _ (by simp)) (.literal _) (appended_written image)
      (.ident _)
  | mapSomeMacro e p f item range test image =>
    exact loop_part member range (.list _ (by simp)) (.literal _)
      (.conditional _ _ _ test (appended_written image) (.ident _)) (.ident _)
  | filterMacro e p item range test =>
    exact loop_part member range (.list _ (by simp)) (.literal _)
      (.conditional _ _ _ test (appended_written (.ident _)) (.ident _)) (.ident _)

theorem test_closed {item accu : String} {range init cond step result : Expr}
    (written : Written (.comprehension item range accu init cond step result)) :
    Closed [accu] cond := by
  generalize loop : Expr.comprehension item range accu init cond step result = e at written
  cases written
  all_goals
    cases loop
  all_goals
    exact (firstFree?_eq_none_iff _ _).1 (by simp [firstFree?, accuVar, Expr.true])

section

variable {S : Stop → Prop} {env : Env}

theorem evalArgs_raises [Regex.Engine] {args : List Expr}
    (each : ∀ e ∈ args, Raises S (eval env e)) :
    ∀ r ∈ evalArgs env args, Raises S r := by
  induction args with
  | nil => simp [evalArgs]
  | cons e rest ih =>
    rw [evalArgs]
    exact List.forall_mem_cons.2
      ⟨each e (by simp), ih fun e member => each e (by simp [member])⟩

theorem firstFails_raises {results : List (Result Value)} (each : ∀ r ∈ results, Raises S r)
    {s : Stop} (fails : firstFails results = some s) : S s := by
  unfold firstFails at fails
  split at fails
  · cases fails
    exact raises_error.1 (each _ (by simp))
  · cases fails
    exact raises_error.1 (each _ (by simp))
  · cases fails

theorem functionOf_raises [Regex.Engine] {function : String} {args : List Expr}
    (each : ∀ e ∈ args, Raises S (eval env e))
    (unknown : Builtin.ofName? function = none → S (.fault (.undeclared function))) :
    Raises S (functionOf env function args) := by
  unfold functionOf
  split
  · exact raises_error.2 (firstFails_raises (evalArgs_raises each) ‹_›)
  · split
    · exact raises_error.2 (unknown ‹_›)
    · exact raises_ok _

theorem evalItems_raises [Regex.Engine] {items : List Expr}
    (each : ∀ e ∈ items, Raises S (eval env e)) :
    Raises S (evalItems env items) := by
  induction items with
  | nil => exact raises_ok _
  | cons e rest ih =>
    have first := each e (by simp)
    have later := ih fun e member => each e (by simp [member])
    rw [evalItems_cons]
    exact first.bind fun v => later.bind fun vs => raises_ok _

theorem evalEntries_raises [Regex.Engine] (allowed : Allows S) {entries : List (Expr × Expr)}
    (each : ∀ entry ∈ entries, Raises S (eval env entry.1) ∧ Raises S (eval env entry.2))
    (done : List (Key × Value)) : Raises S (evalEntries env done entries) := by
  induction entries generalizing done with
  | nil => exact raises_ok _
  | cons entry rest ih =>
    obtain ⟨k, v⟩ := entry
    obtain ⟨key, value⟩ := each (k, v) (by simp)
    have later := ih fun entry member => each entry (by simp [member])
    rw [evalEntries_cons]
    refine key.bind fun w => ((keyOf_plain w).mono allowed.plain).bind fun known => ?_
    exact value.bind fun x => later _

theorem itemsOf_raises (allowed : Allows S) (v : Value) : Raises S (itemsOf v) := by
  cases v with
  | list | map => exact raises_ok _
  | _ => exact raises_error.2 allowed.crash

end

theorem eval_binary_raises [Regex.Engine] {S : Stop → Prop} (allowed : Allows S) {env : Env}
    (op : BinaryOp) {a b : Expr} (left : Raises S (eval env a)) (right : Raises S (eval env b)) :
    Raises S (eval env (.binary op a b)) := by
  cases op with
  | and =>
    rw [eval_and]
    refine left.bind fun x => ?_
    split
    · exact right.bind fun y => raises_ok _
    · exact raises_ok _
  | or =>
    rw [eval_or]
    refine left.bind fun x => ?_
    split
    · exact raises_ok _
    · exact right
  | _ =>
    rw [eval_binary env (by simp) (by simp)]
    exact left.bind fun x => right.bind fun y => (BinaryOp.apply_plain _ x y).mono allowed.plain

theorem eval_raises [Regex.Engine] {scope : List String} {env : Env} (e : Expr)
    (written : Written e) (closed : Closed scope e) (covers : env.Covers scope) :
    Raises (MayStop e) (eval env e) := by
  have allowed := MayStop.allowed e
  have inner (names : List String) (part : Expr) (member : (names, part) ∈ parts e)
      (scope : List String) (closed : Closed scope part) (env : Env) (covers : env.Covers scope) :
      Raises (MayStop e) (eval env part) :=
    (eval_raises part (written_part written member) closed covers).mono (.of_part member)
  have direct (part : Expr) (member : ([], part) ∈ parts e) :
      Raises (MayStop e) (eval env part) :=
    inner [] part member scope (closed_part closed member) env covers
  cases e with
  | literal l => exact raises_ok _
  | ident name =>
    rw [eval_ident]
    split
    · exact raises_ok _
    · rename_i missing
      have unbound : name ∉ scope := fun member => by simpa [missing] using covers name member
      exact absurd (.here scope name unbound) (closed [] name)
  | select e field =>
    rw [eval_select]
    exact (direct e (by simp [parts])).bind fun v => (selectField_plain v field).mono allowed.plain
  | has e field =>
    rw [eval_has]
    exact (direct e (by simp [parts])).bind fun v => raises_ok _
  | unary op e =>
    rw [eval_unary]
    exact (direct e (by simp [parts])).bind fun v => (op.apply_plain v).mono allowed.plain
  | binary op a b =>
    exact eval_binary_raises allowed op (direct a (by simp [parts])) (direct b (by simp [parts]))
  | conditional a b c =>
    rw [eval_conditional]
    refine (direct a (by simp [parts])).bind fun t => ?_
    split
    · exact direct b (by simp [parts])
    · exact direct c (by simp [parts])
  | call function args =>
    have each (e : Expr) (member : e ∈ args) := direct e (by simpa [parts] using member)
    have found := functionOf_raises each (.unknown function (.call function args))
    rw [eval_call]
    exact found.bind fun f => f.apply_raises allowed (evalArgs_raises each)
  | method target function args =>
    have each (e : Expr) (member : e ∈ args) := direct e (by simpa [parts] using .inr member)
    have found := functionOf_raises each (.unknown function (.method target function args))
    rw [eval_method]
    refine found.bind fun f => (direct target (by simp [parts])).bind fun t => ?_
    exact f.apply_raises allowed (evalArgs_raises each)
  | list items =>
    rw [eval_list]
    have each (e : Expr) (member : e ∈ items) := direct e (by simpa [parts] using member)
    exact (evalItems_raises each).bind fun vs => raises_ok _
  | map entries =>
    rw [eval_map]
    have each (entry : Expr × Expr) (member : entry ∈ entries) :=
      have listed := entry_parts member
      And.intro (direct entry.1 listed.1) (direct entry.2 listed.2)
    exact (evalEntries_raises allowed each []).bind fun es => raises_ok _
  | message fields =>
    rw [eval_message]
    exact raises_error.2 allowed.crash
  | comprehension item range accu init cond step result =>
    -- The condition is in the scope of the item, but it is tested before the first item is bound.
    have test := inner [item, accu] cond (by simp [parts]) [accu] (test_closed written)
    have stepClosed : Closed ([item, accu] ++ scope) step := closed_part closed (by simp [parts])
    have steps := inner [item, accu] step (by simp [parts]) _ stepClosed
    have resultClosed : Closed ([accu] ++ scope) result := closed_part closed (by simp [parts])
    have results := inner [accu] result (by simp [parts]) _ resultClosed
    rw [eval_comprehension]
    refine (direct init (by simp [parts])).bind fun a => ?_
    refine (direct range (by simp [parts])).bind fun r => ?_
    refine (itemsOf_raises allowed r).bind fun items => ?_
    refine (iterate_raises covers test steps [] a items).bind_of_ok fun last ends => ?_
    exact results last (iterate_covers covers ends)
termination_by sizeOf e
decreasing_by exact sizeOf_part member

theorem reference_of_run [Regex.Engine] {e : Expr} {text name : String} {c : Context}
    (told : run e text c = .fail (.evaluation text (undeclaredReference name))) :
    eval (.ofContext c) e = fail (.unbound name) ∨ eval (.ofContext c) e = fail (.undeclared name) := by
  unfold run at told
  split at told
  · simp [Outcome.fail] at told
  · unfold outcomeOf at told
    split at told
    · cases told
    · simp [Outcome.fail] at told
    · rename_i f evaluated
      rw [evaluated]
      have same : f.message = undeclaredReference name := by simpa [Outcome.fail] using told
      exact (reference_of_message same).imp (congrArg fail) (congrArg fail)
    · cases told

theorem ofContext_covers (c : Context) : (Env.ofContext c).Covers declared := by
  intro name member
  obtain ⟨v, -, rfl⟩ := List.mem_map.1 member
  cases v <;> rfl

theorem compile_eq {text : String} {e : Expr} (read : Expr.ofText? text = some e) :
    compile text =
      match e.firstFree? fun name => declared.contains name with
      | some name => .error (.compile text ("undeclared reference to '" ++ name ++ "'" : String))
      | none => .ok e := by
  have same : Variable.isDeclared = fun name => declared.contains name := funext isDeclared_eq
  cases found : e.firstFree? fun name => declared.contains name with
  | none => simp only [compile, read, same, found]
  | some name => simp only [compile, read, same, found]

theorem scope_check_exact_and_sound [Regex.Engine] {text : String} {e : Expr}
    (read : Expr.ofText? text = some e) :
    (∀ name, compile text =
        .error (.compile text ("undeclared reference to '" ++ name ++ "'" : String)) ↔
      FirstFree declared e name) ∧
    (∀ p, compile text = .ok p ↔ p = e ∧ Closed declared e) ∧
    ∀ p, compile text = .ok p → ∀ c : Context,
      (∀ name, eval (.ofContext c) p ≠ fail (.unbound name)) ∧
      ∀ name, run p text c = .fail (.evaluation text (undeclaredReference name)) →
        Calls p name ∧ Builtin.ofName? name = none := by
  have exact (name : String) : compile text =
        .error (.compile text ("undeclared reference to '" ++ name ++ "'" : String)) ↔
      FirstFree declared e name := by
    rw [compile_eq read, ← firstFree?_eq_some_iff]
    cases e.firstFree? fun name => declared.contains name <;> simp [Message.exact]
  have passes (p : Expr) : compile text = .ok p ↔ p = e ∧ Closed declared e := by
    rw [compile_eq read, ← firstFree?_eq_none_iff]
    cases e.firstFree? fun name => declared.contains name <;> simp [eq_comm]
  refine ⟨exact, passes, fun p compiled c => ?_⟩
  obtain ⟨rfl, closed⟩ := (passes p).1 compiled
  have stops := eval_raises p (written_of_ofText? read) closed (ofContext_covers c)
  have bound (name : String) : eval (.ofContext c) p ≠ fail (.unbound name) := by
    intro unbound
    cases stops _ unbound with | plain _ own =>
    cases own
  refine ⟨bound, fun name told => ?_⟩
  have may := stops _ ((reference_of_run told).resolve_left (bound name))
  cases may with
  | plain _ own => cases own
  | unknown _ calls missing => exact ⟨calls, missing⟩

def errorOf? : Outcome Bool → Option Error
  | .error (.error e) => some e
  | _ => none

theorem errorOf?_eq_some {r : Outcome Bool} {e : Error} (found : errorOf? r = some e) :
    r = .fail e := by
  rcases r with (_ | _) | _ <;> cases found
  rfl

theorem free_name_found_and_function_missing :
    (∃ e, Expr.ofText? "[1].exists(x, x == y)" = some e ∧ FirstFree declared e "y") ∧
    ∃ p, compile "audit(user)" = .ok p ∧ Calls p "audit" := by
  have finds : ((Expr.ofText? "[1].exists(x, x == y)").map fun e =>
      e.firstFree? fun name => declared.contains name) = some (some "y") := by decide +kernel
  have misses : ((Expr.ofText? "audit(user)").map fun e =>
      (e.firstFree? fun name => declared.contains name,
        errorOf? (run e "audit(user)" ⟨.null, none, .empty, false, "/s.A/m", none⟩))) =
      some (none, some (.evaluation "audit(user)" (undeclaredReference "audit"))) := by
    decide +kernel
  obtain ⟨e, read, free⟩ := Option.map_eq_some_iff.1 finds
  obtain ⟨p, known, given⟩ := Option.map_eq_some_iff.1 misses
  obtain ⟨closed, told⟩ := Prod.mk.inj given
  have refused := compile_eq read
  have compiled := compile_eq known
  rw [free] at refused
  rw [closed] at compiled
  have calls := ((scope_check_exact_and_sound known).2.2 p compiled _).2 "audit"
    (errorOf?_eq_some told)
  exact ⟨⟨e, read, ((scope_check_exact_and_sound read).1 "y").1 refused⟩, p, compiled, calls.1⟩

end CallGuard.Cel
