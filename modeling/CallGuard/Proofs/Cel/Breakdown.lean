import CallGuard.Cel.Evaluator
import CallGuard.Proofs.CachedRules
import CallGuard.Proofs.Cel.Evaluation

set_option autoImplicit false

namespace CallGuard.Cel

inductive LoopVisits [Regex.Engine] (item accu : String) (cond step : Expr) (base : Env) :
    Env → Value → List Value → Env → Expr → Prop
  | test (last : Env) (a v : Value) (vs : List Value) :
    LoopVisits item accu cond step base last a (v :: vs) ((accu, a) :: last ++ base) cond
  | advance (last : Env) (a v c : Value) (vs : List Value)
      (goesOn : eval ((accu, a) :: last ++ base) cond = .ok c) (holds : c.truth = true) :
    LoopVisits item accu cond step base last a (v :: vs) ((item, v) :: (accu, a) :: base) step
  | later (last : Env) (a v b c : Value) (vs : List Value) (env : Env) (e : Expr)
      (goesOn : eval ((accu, a) :: last ++ base) cond = .ok c) (holds : c.truth = true)
      (stepped : eval ((item, v) :: (accu, a) :: base) step = .ok b)
      (visits : LoopVisits item accu cond step base [(item, v)] b vs env e) :
    LoopVisits item accu cond step base last a (v :: vs) env e

def loop [Regex.Engine] (item accu : String) (cond step : Expr) (env : Env) (a : Value)
    (items : List Value) :
    Result Env :=
  iterate item accu (fun env => eval env cond) (fun env => eval env step) env [] a items

-- Where the error of the first argument comes up before the function is looked up.
def isShort (args : List Expr) : Prop := args.length = 1 ∨ args.length = 2

-- To evaluate the first expression in its bindings, the second is evaluated in its own.
inductive Visits [Regex.Engine] (env : Env) : Expr → Env → Expr → Prop
  | selected (e : Expr) (field : String) : Visits env (.select e field) env e
  | tested (e : Expr) (field : String) : Visits env (.has e field) env e
  | operand (op : UnaryOp) (e : Expr) : Visits env (.unary op e) env e
  | left (op : BinaryOp) (a b : Expr) : Visits env (.binary op a b) env a
  | right (op : BinaryOp) (a b : Expr) (x : Value) (value : eval env a = .ok x)
      (needed : (op = .and → x.truth = true) ∧ (op = .or → x.truth = false)) :
    Visits env (.binary op a b) env b
  | test (test yes no : Expr) : Visits env (.conditional test yes no) env test
  | yes (test yes no : Expr) (t : Value) (value : eval env test = .ok t)
      (holds : t.truth = true) :
    Visits env (.conditional test yes no) env yes
  | no (test yes no : Expr) (t : Value) (value : eval env test = .ok t)
      (fails : t.truth = false) :
    Visits env (.conditional test yes no) env no
  | callFirst (function : String) (args : List Expr) (e : Expr) (short : isShort args)
      (first : args[0]? = some e) :
    Visits env (.call function args) env e
  | callArgument (function : String) (args : List Expr) (f : Builtin) (i : Nat) (e : Expr)
      (known : Builtin.ofName? function = some f) (passes : firstFails (evalArgs env args) = none)
      (demands : f.Demands ⟨none, evalArgs env args⟩ i) (argument : args[i]? = some e) :
    Visits env (.call function args) env e
  | methodFirst (target : Expr) (function : String) (args : List Expr) (e : Expr)
      (short : isShort args) (first : args[0]? = some e) :
    Visits env (.method target function args) env e
  | target (target : Expr) (function : String) (args : List Expr) (f : Builtin)
      (known : Builtin.ofName? function = some f)
      (passes : firstFails (evalArgs env args) = none) :
    Visits env (.method target function args) env target
  | methodArgument (target : Expr) (function : String) (args : List Expr) (f : Builtin) (t : Value)
      (i : Nat) (e : Expr) (known : Builtin.ofName? function = some f)
      (passes : firstFails (evalArgs env args) = none) (value : eval env target = .ok t)
      (demands : f.Demands ⟨some t, evalArgs env args⟩ i) (argument : args[i]? = some e) :
    Visits env (.method target function args) env e
  | item (before : List Expr) (e : Expr) (later : List Expr) (vs : List Value)
      (values : evalItems env before = .ok vs) :
    Visits env (.list (before ++ e :: later)) env e
  | key (before : List (Expr × Expr)) (k v : Expr) (later : List (Expr × Expr))
      (done : List (Key × Value)) (values : evalEntries env [] before = .ok done) :
    Visits env (.map (before ++ (k, v) :: later)) env k
  | value (before : List (Expr × Expr)) (k v : Expr) (later : List (Expr × Expr))
      (done : List (Key × Value)) (w : Value) (values : evalEntries env [] before = .ok done)
      (key : eval env k = .ok w) (accepted : w.toKey?.isSome = true) :
    Visits env (.map (before ++ (k, v) :: later)) env v
  | start (item : String) (range : Expr) (accu : String) (init cond step result : Expr) :
    Visits env (.comprehension item range accu init cond step result) env init
  | range (item : String) (range : Expr) (accu : String) (init cond step result : Expr)
      (a : Value) (starts : eval env init = .ok a) :
    Visits env (.comprehension item range accu init cond step result) env range
  | round (item : String) (range : Expr) (accu : String) (init cond step result : Expr)
      (a r : Value) (items : List Value) (inner : Env) (e : Expr) (starts : eval env init = .ok a)
      (ranges : eval env range = .ok r) (goes : itemsOf r = .ok items)
      (visits : LoopVisits item accu cond step env [] a items inner e) :
    Visits env (.comprehension item range accu init cond step result) inner e
  | result (item : String) (range : Expr) (accu : String) (init cond step result : Expr)
      (a r : Value) (items : List Value) (inner : Env) (starts : eval env init = .ok a)
      (ranges : eval env range = .ok r) (goes : itemsOf r = .ok items)
      (ends : loop item accu cond step env a items = .ok inner) :
    Visits env (.comprehension item range accu init cond step result) inner result

-- The operations that have no outcome.
inductive Fatal [Regex.Engine] (env : Env) : Expr → Prop
  | message (fields : List (String × Expr)) : Fatal env (.message fields)
  | range (item : String) (range : Expr) (accu : String) (init cond step result : Expr)
      (a r : Value) (starts : eval env init = .ok a) (ranges : eval env range = .ok r)
      (noList : ∀ items, r ≠ .list items) (noMap : ∀ entries, r ≠ .map entries) :
    Fatal env (.comprehension item range accu init cond step result)
  | call (function : String) (args : List Expr) (f : Builtin)
      (known : Builtin.ofName? function = some f) (passes : firstFails (evalArgs env args) = none)
      (search : f.SearchesNothing ⟨none, evalArgs env args⟩) :
    Fatal env (.call function args)
  | method (target : Expr) (function : String) (args : List Expr) (f : Builtin) (t : Value)
      (known : Builtin.ofName? function = some f) (passes : firstFails (evalArgs env args) = none)
      (value : eval env target = .ok t)
      (search : f.SearchesNothing ⟨some t, evalArgs env args⟩) :
    Fatal env (.method target function args)

inductive BreaksDown [Regex.Engine] : Env → Expr → Prop
  | here (env : Env) (e : Expr) (fatal : Fatal env e) : BreaksDown env e
  | inside (env inner : Env) (e part : Expr) (visits : Visits env e inner part)
      (breaks : BreaksDown inner part) : BreaksDown env e

theorem evalArgs_getElem [Regex.Engine] (env : Env) (args : List Expr) (i : Nat) :
    (evalArgs env args)[i]? = args[i]?.map (eval env) := by
  induction args generalizing i with
  | nil => simp [evalArgs]
  | cons e rest ih =>
    cases i with
    | zero => simp [evalArgs]
    | succ i => simpa [evalArgs] using ih i

theorem loopVisits_crash [Regex.Engine] {item accu : String} {cond step : Expr}
    {base last inner : Env} {a : Value} {items : List Value} {e : Expr}
    (visits : LoopVisits item accu cond step base last a items inner e)
    (crash : eval inner e = .error .crash) :
    iterate item accu (fun env => eval env cond) (fun env => eval env step) base last a items =
      .error .crash := by
  induction visits with
  | test last a v vs => simp only [iterate, crash]
  | advance last a v c vs goesOn holds =>
    simp only [iterate, goesOn, holds, crash, Bool.not_true, Bool.false_eq_true, if_false]
  | later last a v b c vs env e goesOn holds stepped visits ih =>
    simp only [iterate, goesOn, holds, stepped, Bool.not_true, Bool.false_eq_true, if_false]
    exact ih crash

theorem loop_crash [Regex.Engine] {item accu : String} {cond step : Expr} {base last : Env}
    {a : Value} {items : List Value}
    (crash : iterate item accu (fun env => eval env cond) (fun env => eval env step) base last a
      items = .error .crash) :
    ∃ inner e, LoopVisits item accu cond step base last a items inner e ∧ (e = cond ∨ e = step) ∧
      eval inner e = .error .crash := by
  induction items generalizing last a with
  | nil => simp [iterate] at crash
  | cons v vs ih =>
    rw [iterate_cons, bind_crash] at crash
    rcases crash with tested | ⟨c, goesOn, crash⟩
    · exact ⟨_, cond, .test last a v vs, .inl rfl, tested⟩
    · cases holds : c.truth with
      | false => simp [holds] at crash
      | true =>
        rw [if_pos holds, bind_crash] at crash
        rcases crash with advanced | ⟨b, stepped, crash⟩
        · exact ⟨_, step, .advance last a v c vs goesOn holds, .inr rfl, advanced⟩
        · obtain ⟨inner, e, visits, which, crash⟩ := ih crash
          exact ⟨inner, e, .later last a v b c vs inner e goesOn holds stepped visits, which, crash⟩

theorem itemsOf_crash (r : Value) :
    itemsOf r = .error .crash ↔ (∀ items, r ≠ .list items) ∧ ∀ entries, r ≠ .map entries := by
  cases r <;> simp [itemsOf]

theorem firstFails_crash [Regex.Engine] (env : Env) (args : List Expr) :
    firstFails (evalArgs env args) = some .crash ↔
      isShort args ∧ ∃ e, args[0]? = some e ∧ eval env e = .error .crash := by
  rcases args with _ | ⟨a, _ | ⟨b, _ | ⟨c, rest⟩⟩⟩
  · simp [evalArgs, firstFails, isShort]
  · cases h : eval env a <;> simp [evalArgs, firstFails, isShort, h]
  · cases h : eval env a <;> simp [evalArgs, firstFails, isShort, h]
  · simp [evalArgs, firstFails, isShort]

theorem argument_crash [Regex.Engine] {env : Env} {args : List Expr} {i : Nat} {e : Expr}
    (argument : args[i]? = some e) (crash : eval env e = .error .crash) :
    (evalArgs env args)[i]? = some (.error .crash) := by
  simp [evalArgs_getElem, argument, crash]

theorem evalItems_append [Regex.Engine] (env : Env) (first second : List Expr) :
    evalItems env (first ++ second) = do
      let vs ← evalItems env first
      let ws ← evalItems env second
      return vs ++ ws := by
  induction first with
  | nil =>
    simp only [List.nil_append, evalItems, bind, Except.bind, pure, Except.pure]
    cases evalItems env second <;> rfl
  | cons e rest ih =>
    simp only [List.cons_append, evalItems, ih]
    cases eval env e with
    | error s => rfl
    | ok v =>
      cases evalItems env rest with
      | error s => rfl
      | ok vs => cases evalItems env second <;> rfl

theorem evalEntries_append [Regex.Engine] (env : Env) (first second : List (Expr × Expr))
    (done : List (Key × Value)) :
    evalEntries env done (first ++ second) =
      evalEntries env done first >>= fun done => evalEntries env done second := by
  induction first generalizing done with
  | nil => simp [evalEntries, bind, Except.bind]
  | cons entry rest ih =>
    obtain ⟨k, v⟩ := entry
    simp only [List.cons_append, evalEntries]
    split
    · rfl
    · split
      · rfl
      · split
        · rfl
        · exact ih _

theorem eval_crash_of_fatal [Regex.Engine] {env : Env} {e : Expr} (fatal : Fatal env e) :
    eval env e = .error .crash := by
  cases fatal with
  | message fields => exact eval_message env fields
  | range item range accu init cond step result a r starts ranges noList noMap =>
    simp only [eval, starts, ranges, (itemsOf_crash r).2 ⟨noList, noMap⟩]
  | call function args f known passes search =>
    simp only [eval, passes, known]
    exact (f.apply_crash _).2 (.inr search)
  | method target function args f t known passes value search =>
    simp only [eval, passes, known, value]
    exact (f.apply_crash _).2 (.inr search)

theorem eval_crash_of_visits [Regex.Engine] {env inner : Env} {e part : Expr}
    (visits : Visits env e inner part)
    (crash : eval inner part = .error .crash) : eval env e = .error .crash := by
  cases visits with
  | selected | tested | operand | test => simp only [eval, crash]
  | left op a b => cases op <;> simp only [eval, crash]
  | right op a b x value needed =>
    cases op <;> simp_all [eval]
  | yes test yes no t value holds => simp [eval, value, holds, crash]
  | no test yes no t value fails => simp [eval, value, fails, crash]
  | callFirst function args e short first =>
    have fails := (firstFails_crash env args).2 ⟨short, part, first, crash⟩
    simp only [eval, fails]
  | methodFirst target function args e short first =>
    have fails := (firstFails_crash env args).2 ⟨short, part, first, crash⟩
    simp only [eval, fails]
  | callArgument function args f i e known passes demands argument =>
    simp only [eval, passes, known]
    exact (f.apply_crash _).2 (.inl ⟨i, demands, argument_crash argument crash⟩)
  | target target function args f known passes => simp only [eval, passes, known, crash]
  | methodArgument target function args f t i e known passes value demands argument =>
    simp only [eval, passes, known, value]
    exact (f.apply_crash _).2 (.inl ⟨i, demands, argument_crash argument crash⟩)
  | item before e later vs values =>
    simp only [eval, evalItems_append, values, bind, Except.bind, evalItems, crash]
  | key before k v later done values =>
    simp only [eval, evalEntries_append, values, bind, Except.bind, evalEntries, crash]
  | value before k v later done w values key accepted =>
    obtain ⟨known, toKey⟩ := Option.isSome_iff_exists.1 accepted
    simp only [eval, evalEntries_append, values, bind, Except.bind, evalEntries, key, toKey, crash]
  | start => simp only [eval, crash]
  | range item range accu init cond step result a starts => simp only [eval, starts, crash]
  | round item range accu init cond step result a r items inner e starts ranges goes visits =>
    simp only [eval, starts, ranges, goes, loopVisits_crash visits crash]
  | result item range accu init cond step result a r items inner starts ranges goes ends =>
    rw [loop] at ends
    simp only [eval, starts, ranges, goes, ends, crash]

theorem eval_crash_of_breaksDown [Regex.Engine] {env : Env} {e : Expr} (breaks : BreaksDown env e) :
    eval env e = .error .crash := by
  -- on the way down to the fatal operation, one expression inside of another
  induction breaks with
  | here env e fatal => exact eval_crash_of_fatal fatal
  | inside env inner e part visits _ ih => exact eval_crash_of_visits visits ih

theorem item_of_crash [Regex.Engine] {env : Env} {before later : List Expr} {vs : List Value}
    (values : evalItems env before = .ok vs) (crash : evalItems env later = .error .crash) :
    ∃ e, Visits env (.list (before ++ later)) env e ∧ eval env e = .error .crash := by
  induction later generalizing before vs with
  | nil => simp [evalItems] at crash
  | cons e rest ih =>
    rw [evalItems_cons, bind_crash] at crash
    rcases crash with first | ⟨v, value, crash⟩
    · exact ⟨e, .item before e rest vs values, first⟩
    · have longer : evalItems env (before ++ [e]) = .ok (vs ++ [v]) := by
        simp [evalItems_append, values, evalItems, value, bind, Except.bind, pure, Except.pure]
      have inner : evalItems env rest = .error .crash :=
        (bind_plain_crash fun _ => plain_ok _).1 crash
      simpa using ih longer inner

theorem entry_of_crash [Regex.Engine] {env : Env} {before later : List (Expr × Expr)}
    {done : List (Key × Value)} (values : evalEntries env [] before = .ok done)
    (crash : evalEntries env done later = .error .crash) :
    ∃ e, Visits env (.map (before ++ later)) env e ∧ eval env e = .error .crash := by
  induction later generalizing before done with
  | nil => simp [evalEntries] at crash
  | cons entry rest ih =>
    obtain ⟨k, v⟩ := entry
    rw [evalEntries_cons, bind_crash] at crash
    rcases crash with first | ⟨w, key, crash⟩
    · exact ⟨k, .key before k v rest done values, first⟩
    rcases bind_crash.1 crash with refused | ⟨known, accepted, crash⟩
    · exact absurd refused (keyOf_plain w).ne_crash
    have toKey := keyOf_eq_ok.1 accepted
    rcases bind_crash.1 crash with second | ⟨x, value, crash⟩
    · exact ⟨v, .value before k v rest done w values key (by simp [toKey]), second⟩
    · have longer : evalEntries env [] (before ++ [(k, v)]) = .ok (Value.insert done known x) := by
        simp [evalEntries_append, values, evalEntries, key, toKey, value, bind, Except.bind]
      simpa using ih longer crash

theorem argument_of_crash [Regex.Engine] {env : Env} {args : List Expr} {i : Nat}
    (crash : (evalArgs env args)[i]? = some (.error .crash)) :
    ∃ e, args[i]? = some e ∧ eval env e = .error .crash := by
  rw [evalArgs_getElem] at crash
  exact Option.map_eq_some_iff.1 crash

theorem operand_of_crash [Regex.Engine] {env : Env} {op : BinaryOp} {a b : Expr}
    (crash : eval env (.binary op a b) = .error .crash) :
    ∃ part, Visits env (.binary op a b) env part ∧ eval env part = .error .crash := by
  have right (x : Value) (value : eval env a = .ok x)
      (needed : (op = .and → x.truth = true) ∧ (op = .or → x.truth = false))
      (breaks : eval env b = .error .crash) :
      ∃ part, Visits env (.binary op a b) env part ∧ eval env part = .error .crash :=
    ⟨b, .right op a b x value needed, breaks⟩
  cases op with
  | and =>
    rw [eval_and, bind_crash] at crash
    rcases crash with left | ⟨x, value, crash⟩
    · exact ⟨a, .left .and a b, left⟩
    · cases truth : x.truth with
      | false => simp [truth] at crash
      | true =>
        rw [if_pos truth] at crash
        exact right x value (by simp [truth]) ((bind_plain_crash fun _ => plain_ok _).1 crash)
  | or =>
    rw [eval_or, bind_crash] at crash
    rcases crash with left | ⟨x, value, crash⟩
    · exact ⟨a, .left .or a b, left⟩
    · cases truth : x.truth with
      | true => simp [truth] at crash
      | false => exact right x value (by simp [truth]) (by simpa [truth] using crash)
  | _ =>
    rw [eval_binary env (by simp) (by simp), bind_crash] at crash
    rcases crash with left | ⟨x, value, crash⟩
    · exact ⟨a, .left _ a b, left⟩
    · exact right x value (by simp) ((bind_plain_crash fun y => BinaryOp.apply_plain _ x y).1 crash)

theorem branch_of_crash [Regex.Engine] {env : Env} {test yes no : Expr}
    (crash : eval env (.conditional test yes no) = .error .crash) :
    ∃ part, Visits env (.conditional test yes no) env part ∧ eval env part = .error .crash := by
  rw [eval_conditional, bind_crash] at crash
  rcases crash with tested | ⟨t, value, crash⟩
  · exact ⟨test, .test test yes no, tested⟩
  · cases holds : t.truth with
    | true =>
      rw [if_pos holds] at crash
      exact ⟨yes, .yes test yes no t value holds, crash⟩
    | false =>
      rw [if_neg (by simp [holds])] at crash
      exact ⟨no, .no test yes no t value holds, crash⟩

def Fails [Regex.Engine] (env : Env) (e : Expr) : Prop :=
  Fatal env e ∨ ∃ inner part, Visits env e inner part ∧ eval inner part = .error .crash

theorem call_of_crash [Regex.Engine] {env : Env} {function : String} {args : List Expr}
    (crash : eval env (.call function args) = .error .crash) :
    Fails env (.call function args) := by
  rw [eval_call, bind_crash] at crash
  rcases crash with early | ⟨f, found, crash⟩
  · have fails := (functionOf_crash env function args).1 early
    obtain ⟨short, e, first, value⟩ := (firstFails_crash env args).1 fails
    exact .inr ⟨env, e, .callFirst function args e short first, value⟩
  obtain ⟨passes, known⟩ := (functionOf_eq_ok env).1 found
  rcases (f.apply_crash _).1 crash with ⟨i, demands, argument⟩ | search
  · obtain ⟨e, argument, value⟩ := argument_of_crash argument
    exact .inr ⟨env, e, .callArgument function args f i e known passes demands argument, value⟩
  · exact .inl (.call function args f known passes search)

theorem method_of_crash [Regex.Engine] {env : Env} {target : Expr} {function : String}
    {args : List Expr} (crash : eval env (.method target function args) = .error .crash) :
    Fails env (.method target function args) := by
  rw [eval_method, bind_crash] at crash
  rcases crash with early | ⟨f, found, crash⟩
  · have fails := (functionOf_crash env function args).1 early
    obtain ⟨short, e, first, value⟩ := (firstFails_crash env args).1 fails
    exact .inr ⟨env, e, .methodFirst target function args e short first, value⟩
  obtain ⟨passes, known⟩ := (functionOf_eq_ok env).1 found
  rcases bind_crash.1 crash with first | ⟨t, value, crash⟩
  · exact .inr ⟨env, target, .target target function args f known passes, first⟩
  rcases (f.apply_crash _).1 crash with ⟨i, demands, argument⟩ | search
  · obtain ⟨e, argument, breaks⟩ := argument_of_crash argument
    have visits := Visits.methodArgument target function args f t i e known passes value demands
      argument
    exact .inr ⟨env, e, visits, breaks⟩
  · exact .inl (.method target function args f t known passes value search)

theorem comprehension_of_crash [Regex.Engine] {env : Env} {item accu : String}
    {range init cond step result : Expr}
    (crash : eval env (.comprehension item range accu init cond step result) = .error .crash) :
    Fails env (.comprehension item range accu init cond step result) := by
  rw [eval_comprehension, bind_crash] at crash
  rcases crash with first | ⟨a, starts, crash⟩
  · exact .inr ⟨env, init, .start item range accu init cond step result, first⟩
  rcases bind_crash.1 crash with second | ⟨r, ranges, crash⟩
  · exact .inr ⟨env, range, .range item range accu init cond step result a starts, second⟩
  rcases bind_crash.1 crash with refused | ⟨items, goes, crash⟩
  · obtain ⟨noList, noMap⟩ := (itemsOf_crash r).1 refused
    exact .inl (.range item range accu init cond step result a r starts ranges noList noMap)
  rcases bind_crash.1 crash with stopped | ⟨last, ends, crash⟩
  · obtain ⟨inner, e, visits, _, value⟩ := loop_crash stopped
    have round := Visits.round item range accu init cond step result a r items inner e starts ranges
      goes visits
    exact .inr ⟨inner, e, round, value⟩
  · have ended := Visits.result item range accu init cond step result a r items last starts ranges
      goes ends
    exact .inr ⟨last, result, ended, crash⟩

theorem fails_of_crash [Regex.Engine] {env : Env} {e : Expr} (crash : eval env e = .error .crash) :
    Fails env e := by
  cases e with
  | literal l => simp [eval] at crash
  | ident name =>
    rw [eval_ident] at crash
    split at crash <;> simp [fail] at crash
  | select e field =>
    rw [eval_select, bind_plain_crash fun v => selectField_plain v field] at crash
    exact .inr ⟨env, e, .selected e field, crash⟩
  | has e field =>
    rw [eval_has, bind_plain_crash fun v => plain_ok _] at crash
    exact .inr ⟨env, e, .tested e field, crash⟩
  | unary op e =>
    rw [eval_unary, bind_plain_crash fun v => op.apply_plain v] at crash
    exact .inr ⟨env, e, .operand op e, crash⟩
  | binary op a b =>
    obtain ⟨part, visits, value⟩ := operand_of_crash crash
    exact .inr ⟨env, part, visits, value⟩
  | conditional test yes no =>
    obtain ⟨part, visits, value⟩ := branch_of_crash crash
    exact .inr ⟨env, part, visits, value⟩
  | call function args => exact call_of_crash crash
  | method target function args => exact method_of_crash crash
  | list items =>
    rw [eval_list, bind_plain_crash fun vs => plain_ok _] at crash
    have none : evalItems env [] = .ok [] := rfl
    obtain ⟨e, visits, value⟩ := item_of_crash none crash
    exact .inr ⟨env, e, visits, value⟩
  | map entries =>
    rw [eval_map, bind_plain_crash fun es => plain_ok _] at crash
    have none : evalEntries env [] [] = .ok [] := rfl
    obtain ⟨e, visits, value⟩ := entry_of_crash none crash
    exact .inr ⟨env, e, visits, value⟩
  | message fields => exact .inl (.message fields)
  | comprehension item range accu init cond step result => exact comprehension_of_crash crash

theorem loopVisits_part [Regex.Engine] {item accu : String} {cond step : Expr}
    {base last inner : Env} {a : Value} {items : List Value} {e : Expr}
    (visits : LoopVisits item accu cond step base last a items inner e) : e = cond ∨ e = step := by
  induction visits with
  | test => exact .inl rfl
  | advance => exact .inr rfl
  | later _ _ _ _ _ _ _ _ _ _ _ _ ih => exact ih

theorem visits_smaller [Regex.Engine] {env inner : Env} {e part : Expr}
    (visits : Visits env e inner part) : sizeOf part < sizeOf e := by
  cases visits with
  | callFirst function args e short first | methodFirst target function args e short first =>
    have := List.sizeOf_lt_of_mem (List.mem_of_getElem? first)
    simp
    omega
  | callArgument function args f i e known passes demands argument
  | methodArgument target function args f t i e known passes value demands argument =>
    have := List.sizeOf_lt_of_mem (List.mem_of_getElem? argument)
    simp
    omega
  | item before e later =>
    have := List.sizeOf_lt_of_mem (List.mem_append_cons_self : part ∈ before ++ part :: later)
    simp
    omega
  | key before k v later =>
    have member : (part, v) ∈ before ++ (part, v) :: later := List.mem_append_cons_self
    have smaller := List.sizeOf_lt_of_mem member
    simp at smaller ⊢
    omega
  | value before k v later =>
    have member : (k, part) ∈ before ++ (k, part) :: later := List.mem_append_cons_self
    have smaller := List.sizeOf_lt_of_mem member
    simp at smaller ⊢
    omega
  | round item range accu init cond step result a r items inner e starts ranges goes visits =>
    rcases loopVisits_part visits with rfl | rfl <;> simp <;> omega
  | _ => simp <;> omega

theorem breaksDown_of_eval_crash [Regex.Engine] (env : Env) (e : Expr)
    (crash : eval env e = .error .crash) :
    BreaksDown env e := by
  rcases fails_of_crash crash with fatal | ⟨inner, part, visits, crash⟩
  · exact .here env e fatal
  · exact .inside env inner e part visits (breaksDown_of_eval_crash inner part crash)
termination_by sizeOf e
decreasing_by exact visits_smaller visits

theorem eval_crash_iff [Regex.Engine] (env : Env) (e : Expr) :
    eval env e = .error .crash ↔ BreaksDown env e :=
  ⟨breaksDown_of_eval_crash env e, eval_crash_of_breaksDown⟩

mutual

def isTame : Expr → Bool
  | .literal _ => true
  | .ident _ => true
  | .select e _ => isTame e
  | .has e _ => isTame e
  | .unary _ e => isTame e
  | .binary _ a b => isTame a && isTame b
  | .conditional a b c => isTame a && isTame b && isTame c
  | .call function args => function != Builtin.contains.name && areTame args
  | .method target function args =>
    function != Builtin.contains.name && isTame target && areTame args
  | .list items => areTame items
  | .map entries => entriesAreTame entries
  | .message _ => false
  | .comprehension _ _ _ _ _ _ _ => false

def areTame : List Expr → Bool
  | [] => true
  | e :: es => isTame e && areTame es

def entriesAreTame : List (Expr × Expr) → Bool
  | [] => true
  | (k, v) :: rest => isTame k && isTame v && entriesAreTame rest

end

theorem isTame_of_member {es : List Expr} {e : Expr} (tame : areTame es = true)
    (member : e ∈ es) : isTame e = true := by
  induction es with
  | nil => simp at member
  | cons a rest ih =>
    simp only [areTame, Bool.and_eq_true] at tame
    rcases List.mem_cons.1 member with rfl | member
    · exact tame.1
    · exact ih tame.2 member

theorem entry_isTame_of_member {es : List (Expr × Expr)} {k v : Expr}
    (tame : entriesAreTame es = true) (member : (k, v) ∈ es) :
    isTame k = true ∧ isTame v = true := by
  induction es with
  | nil => simp at member
  | cons entry rest ih =>
    simp only [entriesAreTame, Bool.and_eq_true] at tame
    rcases List.mem_cons.1 member with rfl | member
    · exact tame.1
    · exact ih tame.2 member

theorem Builtin.ofName?_contains {name : String} (known : ofName? name = some contains) :
    name = contains.name := by
  obtain ⟨before, after, listed, _⟩ := List.lookup_eq_some_iff.1 known
  have member : (name, contains) ∈ all := by simp [listed]
  simpa [all, Builtin.name] using member

theorem tame_part [Regex.Engine] {env inner : Env} {e part : Expr}
    (visits : Visits env e inner part) (tame : isTame e = true) : isTame part = true := by
  cases visits with
  | callFirst function args e short first =>
    simp only [isTame, Bool.and_eq_true] at tame
    exact isTame_of_member tame.2 (List.mem_of_getElem? first)
  | methodFirst target function args e short first =>
    simp only [isTame, Bool.and_eq_true] at tame
    exact isTame_of_member tame.2 (List.mem_of_getElem? first)
  | callArgument function args f i e known passes demands argument =>
    simp only [isTame, Bool.and_eq_true] at tame
    exact isTame_of_member tame.2 (List.mem_of_getElem? argument)
  | methodArgument target function args f t i e known passes value demands argument =>
    simp only [isTame, Bool.and_eq_true] at tame
    exact isTame_of_member tame.2 (List.mem_of_getElem? argument)
  | item before e later vs values => exact isTame_of_member tame List.mem_append_cons_self
  | key before k v later done values =>
    exact (entry_isTame_of_member tame List.mem_append_cons_self).1
  | value before k v later done w values key accepted =>
    exact (entry_isTame_of_member tame List.mem_append_cons_self).2
  | _ => simp_all [isTame]

theorem fatal_not_tame [Regex.Engine] {env : Env} {e : Expr} (fatal : Fatal env e) :
    isTame e = false := by
  cases fatal with
  | message => rfl
  | range => rfl
  | call function args f known passes search =>
    obtain rfl := search.1
    simp [isTame, Builtin.ofName?_contains known]
  | method target function args f t known passes value search =>
    obtain rfl := search.1
    simp [isTame, Builtin.ofName?_contains known]

theorem breaksDown_not_tame [Regex.Engine] {env : Env} {e : Expr} (breaks : BreaksDown env e) :
    isTame e = false := by
  induction breaks with
  | here env e fatal => exact fatal_not_tame fatal
  | inside env inner e part visits _ ih =>
    cases tame : isTame e with
    | false => rfl
    | true => simp [tame_part visits tame] at ih

theorem outcomeOf_crash (text : String) (r : Result Value) :
    outcomeOf text r = .error .crash ↔ r = .error .crash := by
  rcases r with (f | _) | v
  · simp [outcomeOf, Outcome.fail]
  · simp [outcomeOf]
  · cases v <;> simp [outcomeOf, Outcome.fail]

theorem run_crash_iff [Regex.Engine] (e : Expr) (text : String) (c : Context) :
    run e text c = .error .crash ↔
      c.deadlinePassed = false ∧ BreaksDown (.ofContext c) e := by
  unfold run
  cases passed : c.deadlinePassed with
  | true => simp [Outcome.fail]
  | false => simp [outcomeOf_crash, eval_crash_iff]

theorem verdict_crash_iff [Regex.Engine] (c : Context) (rule : String) :
    verdict compile run c rule = .error .crash ↔
      ∃ e, compile rule = .ok e ∧ c.deadlinePassed = false ∧ BreaksDown (.ofContext c) e := by
  unfold verdict
  cases compiled : compile rule with
  | error e => simp [Outcome.fail]
  | ok e => simp [run_crash_iff]

theorem verdict_false_iff [Regex.Engine] (c : Context) (rule : String) :
    verdict compile run c rule = .ok false ↔
      ∃ e, compile rule = .ok e ∧ run e rule c = .ok false := by
  unfold verdict
  cases compiled : compile rule with
  | error e => simp [Outcome.fail]
  | ok e => simp

theorem evaluator_computes [Regex.Engine] :
    evaluator.Computes (fun _ => True) run :=
  ⟨fun _ _ _ _ _ => rfl, fun _ _ _ _ _ => trivial⟩

-- A tame expression has no operation without an outcome.
theorem crash_iff_breaksDown [Regex.Engine] (e : Expr) (text : String) (c : Context)
    (catalog : Catalog) (fallback : Fallback) (history : List Request) :
    (run e text c = .error .crash ↔
      c.deadlinePassed = false ∧ BreaksDown (.ofContext c) e) ∧
    (∀ env, isTame e = true → ¬ BreaksDown env e) ∧
    ((((RuleAuthorizer.ofParts catalog evaluator () fallback).after history).authorize c).1 =
        .error .crash ↔
      ∃ set index rule p, catalog.lookup? c.method = some set ∧ set.isAllowAll = false ∧
        (∀ earlier ∈ set.rules.take index, ∃ q, compile earlier = .ok q ∧
          run q earlier c = .ok false) ∧
        set.rules[index]? = some rule ∧ compile rule = .ok p ∧ c.deadlinePassed = false ∧
        BreaksDown (.ofContext c) p) := by
  refine ⟨run_crash_iff e text c, fun env tame breaks => ?_, ?_⟩
  · simp [breaksDown_not_tame breaks] at tame
  · rw [RuleAuthorizer.authorize_iff_ruling evaluator_computes trivial]
    constructor
    · intro ruling
      cases ruling with | failed set index halt known plain decides
      obtain ⟨before, here, _⟩ := decides
      obtain ⟨rule, found, crash⟩ := Option.map_eq_some_iff.1 here
      obtain ⟨e, compiled, onTime, breaks⟩ := (verdict_crash_iff c rule).1 crash
      refine ⟨set, index, rule, e, known, plain, fun earlier member => ?_, found, compiled, onTime,
        breaks⟩
      exact (verdict_false_iff c earlier).1 (before earlier member)
    · rintro ⟨set, index, rule, e, known, plain, before, found, compiled, onTime, breaks⟩
      have crash := (verdict_crash_iff c rule).2 ⟨e, compiled, onTime, breaks⟩
      refine .failed set index .crash known plain ⟨fun earlier member => ?_, ?_, by simp⟩
      · exact (verdict_false_iff c earlier).2 (before earlier member)
      · exact Option.map_eq_some_iff.2 ⟨rule, found, crash⟩

def isCrash : Outcome Bool → Bool
  | .error .crash => true
  | _ => false

theorem isCrash_iff (r : Outcome Bool) : isCrash r = true ↔ r = .error .crash := by
  rcases r with (_ | _) | _ <;> simp [isCrash]

theorem eq_ok_of_toOption {ε α : Type} {r : Except ε α} {a : α} (found : r.toOption = some a) :
    r = .ok a := by
  cases r with
  | error e => cases found
  | ok b => exact congrArg Except.ok (Option.some.inj found)

theorem request_breaks_compiled_rule :
    ∃ e, compile "request.exists(r, true)" = .ok e ∧
      run e "request.exists(r, true)" ⟨.null, some (.arr [.null]), .empty, false, "/s.A/m", none⟩ =
        .ok true ∧
      run e "request.exists(r, true)" ⟨.null, some (.bool true), .empty, false, "/s.A/m", none⟩ =
        .error .crash := by
  have evaluated : ((compile "request.exists(r, true)").toOption.map fun e =>
      ((run e "request.exists(r, true)"
        ⟨.null, some (.arr [.null]), .empty, false, "/s.A/m", none⟩).toOption,
      isCrash (run e "request.exists(r, true)"
        ⟨.null, some (.bool true), .empty, false, "/s.A/m", none⟩))) =
      some (some true, true) := by decide +kernel
  obtain ⟨e, compiled, given⟩ := Option.map_eq_some_iff.1 evaluated
  obtain ⟨allows, crashes⟩ := Prod.mk.inj given
  exact ⟨e, eq_ok_of_toOption compiled, eq_ok_of_toOption allows, (isCrash_iff _).1 crashes⟩

end CallGuard.Cel
