import CallGuard.Proofs.Cel.Operations

set_option autoImplicit false

namespace CallGuard.Cel

def keyOf (w : Value) : Result Key :=
  match w.toKey? with
  | none => fail (.unsupportedKey w)
  | some key => .ok key

theorem keyOf_plain (w : Value) : Plain (keyOf w) := by
  unfold keyOf
  split <;> simp

theorem keyOf_eq_ok {w : Value} {key : Key} : keyOf w = .ok key ↔ w.toKey? = some key := by
  unfold keyOf
  cases w.toKey? <;> simp [fail]

theorem iterate_cons (item accu : String) (cond step : Env → Result Value) (base last : Env)
    (a v : Value) (vs : List Value) :
    iterate item accu cond step base last a (v :: vs) =
      cond ((accu, a) :: last ++ base) >>= fun c =>
        if c.truth then
          step ((item, v) :: (accu, a) :: base) >>= fun b =>
            iterate item accu cond step base [(item, v)] b vs
        else .ok ((accu, a) :: last ++ base) := by
  rw [iterate]
  cases cond ((accu, a) :: last ++ base) with
  | error s => rfl
  | ok c =>
    cases goesOn : c.truth with
    | false => simp [goesOn, bind, Except.bind]
    | true =>
      simp only [goesOn, bind, Except.bind, Bool.not_true, Bool.false_eq_true, if_false, if_true]
      cases step ((item, v) :: (accu, a) :: base) <;> rfl

section

variable [Regex.Engine] (env : Env)

theorem eval_select (e : Expr) (field : String) :
    eval env (.select e field) = eval env e >>= fun v => selectField v field := by
  rw [eval]
  cases eval env e <;> rfl

theorem eval_has (e : Expr) (field : String) :
    eval env (.has e field) = eval env e >>= fun v => .ok (.bool (hasField v field)) := by
  rw [eval]
  cases eval env e <;> rfl

theorem eval_unary (op : UnaryOp) (e : Expr) :
    eval env (.unary op e) = eval env e >>= fun v => op.apply v := by
  rw [eval]
  cases eval env e <;> rfl

theorem eval_and (a b : Expr) :
    eval env (.binary .and a b) = eval env a >>= fun x =>
      if x.truth then eval env b >>= fun y => .ok (.bool y.truth) else .ok (.bool false) := by
  rw [eval]
  cases eval env a with
  | error s => rfl
  | ok x => cases eval env b <;> rfl

theorem eval_or (a b : Expr) :
    eval env (.binary .or a b) = eval env a >>= fun x =>
      if x.truth then .ok x else eval env b := by
  rw [eval]
  cases eval env a <;> rfl

theorem eval_binary {op : BinaryOp} (noAnd : op ≠ .and) (noOr : op ≠ .or) (a b : Expr) :
    eval env (.binary op a b) = eval env a >>= fun x => eval env b >>= fun y => op.apply x y := by
  rw [eval]
  · cases eval env a with
    | error s => rfl
    | ok x => cases eval env b <;> rfl
  · exact noAnd
  · exact noOr

theorem eval_conditional (test yes no : Expr) :
    eval env (.conditional test yes no) = eval env test >>= fun t =>
      if t.truth then eval env yes else eval env no := by
  rw [eval]
  cases eval env test <;> rfl

def functionOf (function : String) (args : List Expr) : Result Builtin :=
  match firstFails (evalArgs env args) with
  | some s => .error s
  | none =>
    match Builtin.ofName? function with
    | none => fail (.undeclared function)
    | some f => .ok f

theorem functionOf_eq_ok {function : String} {args : List Expr} {f : Builtin} :
    functionOf env function args = .ok f ↔
      firstFails (evalArgs env args) = none ∧ Builtin.ofName? function = some f := by
  unfold functionOf
  cases firstFails (evalArgs env args) with
  | some s => simp
  | none => cases Builtin.ofName? function <;> simp [fail]

theorem functionOf_crash (function : String) (args : List Expr) :
    functionOf env function args = .error .crash ↔
      firstFails (evalArgs env args) = some .crash := by
  unfold functionOf
  cases firstFails (evalArgs env args) with
  | some s => simp
  | none => cases Builtin.ofName? function <;> simp [fail]

theorem eval_call (function : String) (args : List Expr) :
    eval env (.call function args) =
      functionOf env function args >>= fun f => f.apply ⟨none, evalArgs env args⟩ := by
  rw [eval, functionOf]
  cases firstFails (evalArgs env args) with
  | some s => rfl
  | none => cases Builtin.ofName? function <;> rfl

theorem eval_method (target : Expr) (function : String) (args : List Expr) :
    eval env (.method target function args) =
      functionOf env function args >>= fun f => eval env target >>= fun t =>
        f.apply ⟨some t, evalArgs env args⟩ := by
  rw [eval, functionOf]
  cases firstFails (evalArgs env args) with
  | some s => rfl
  | none =>
    cases Builtin.ofName? function with
    | none => rfl
    | some f => cases eval env target <;> rfl

theorem evalItems_cons (e : Expr) (rest : List Expr) :
    evalItems env (e :: rest) =
      eval env e >>= fun v => evalItems env rest >>= fun vs => .ok (v :: vs) := by
  rw [evalItems]
  cases eval env e with
  | error s => rfl
  | ok v => cases evalItems env rest <;> rfl

theorem evalEntries_cons (done : List (Key × Value)) (k v : Expr) (rest : List (Expr × Expr)) :
    evalEntries env done ((k, v) :: rest) = eval env k >>= fun w => keyOf w >>= fun key =>
      eval env v >>= fun x => evalEntries env (Value.insert done key x) rest := by
  rw [evalEntries]
  cases eval env k with
  | error s => rfl
  | ok w =>
    simp only [bind, Except.bind, keyOf]
    cases w.toKey? with
    | none => rfl
    | some key => cases eval env v <;> rfl

theorem eval_list (items : List Expr) :
    eval env (.list items) = evalItems env items >>= fun vs => .ok (.list vs) := by
  rw [eval]
  cases evalItems env items <;> rfl

theorem eval_map (entries : List (Expr × Expr)) :
    eval env (.map entries) = evalEntries env [] entries >>= fun es => .ok (.map es) := by
  rw [eval]
  cases evalEntries env [] entries <;> rfl

theorem eval_comprehension (item : String) (range : Expr) (accu : String)
    (init cond step result : Expr) :
    eval env (.comprehension item range accu init cond step result) =
      eval env init >>= fun a => eval env range >>= fun r => itemsOf r >>= fun items =>
        iterate item accu (fun env => eval env cond) (fun env => eval env step) env [] a items >>=
          fun inner => eval inner result := by
  rw [eval]
  cases eval env init with
  | error s => rfl
  | ok a =>
    cases eval env range with
    | error s => rfl
    | ok r =>
      cases goes : itemsOf r with
      | error s => simp only [goes, bind, Except.bind]
      | ok items =>
        simp only [goes, bind, Except.bind]
        cases iterate item accu (fun env => eval env cond) (fun env => eval env step) env [] a
          items <;> rfl

end

end CallGuard.Cel
