import CallGuard.Cel.Builtin

set_option autoImplicit false

namespace CallGuard.Cel

-- Bound names, the innermost first.
abbrev Env := List (String × Value)

def Literal.toValue : Literal → Value
  | null => .null
  | bool b => .bool b
  | int i => .int i
  | uint n => .uint n
  | double x => .double x
  | string s => .string s
  | bytes bs => .bytes bs

def selectField (v : Value) (field : String) : Result Value :=
  -- A field of a map; a built-in function may be selected from anything.
  let own := match v with
    | .map entries => entries.lookup (.string field)
    | _ => none
  match own, Builtin.ofName? field with
  | some w, _ => .ok w
  | none, some _ => .ok (.function field v)
  | none, none => fail (.noSuchKey field)

def hasField (v : Value) (field : String) : Bool :=
  match v with
  | .map entries => (entries.lookup (.string field)).isSome
  | _ => false

def itemsOf : Value → Result (List Value)
  | .list items => .ok items
  | .map entries => .ok (entries.map fun e => e.1.toValue)
  | _ => .error .crash

-- The condition is tested before the next item is bound; the item before is still there.
def iterate (item accu : String) (cond step : Env → Result Value) (base : Env) :
    Env → Value → List Value → Result Env
  | last, a, [] => .ok ((accu, a) :: last ++ base)
  | last, a, v :: vs =>
    match cond ((accu, a) :: last ++ base) with
    | .error s => .error s
    | .ok c =>
      if !c.truth then .ok ((accu, a) :: last ++ base)
      else
        match step ((item, v) :: (accu, a) :: base) with
        | .error s => .error s
        | .ok b => iterate item accu cond step base [(item, v)] b vs

def firstFails (args : List (Result Value)) : Option Stop :=
  -- One or two arguments bring up the error of the first before the function is looked up.
  match args with
  | [.error s] => some s
  | [.error s, _] => some s
  | _ => none

mutual

def eval [Regex.Engine] (env : Env) : Expr → Result Value
  | .literal l => .ok l.toValue
  | .ident name =>
    match env.lookup name with
    | some v => .ok v
    | none => fail (.unbound name)
  | .select e field =>
    match eval env e with
    | .ok v => selectField v field
    | .error s => .error s
  | .has e field =>
    match eval env e with
    | .ok v => .ok (.bool (hasField v field))
    | .error s => .error s
  | .unary op e =>
    match eval env e with
    | .ok v => op.apply v
    | .error s => .error s
  | .binary .and a b =>
    match eval env a with
    | .error s => .error s
    | .ok x =>
      if x.truth then
        match eval env b with
        | .ok y => .ok (.bool y.truth)
        | .error s => .error s
      else .ok (.bool false)
  | .binary .or a b =>
    match eval env a with
    | .error s => .error s
    | .ok x => if x.truth then .ok x else eval env b
  | .binary op a b =>
    match eval env a with
    | .error s => .error s
    | .ok x =>
      match eval env b with
      | .ok y => op.apply x y
      | .error s => .error s
  | .conditional test yes no =>
    match eval env test with
    | .error s => .error s
    | .ok t => if t.truth then eval env yes else eval env no
  | .call function args =>
    let results := evalArgs env args
    match firstFails results with
    | some s => .error s
    | none =>
      match Builtin.ofName? function with
      | none => fail (.undeclared function)
      | some f => f.apply ⟨none, results⟩
  | .method target function args =>
    let results := evalArgs env args
    match firstFails results with
    | some s => .error s
    | none =>
      match Builtin.ofName? function with
      | none => fail (.undeclared function)
      | some f =>
        match eval env target with
        | .error s => .error s
        | .ok t => f.apply ⟨some t, results⟩
  | .list items =>
    match evalItems env items with
    | .ok vs => .ok (.list vs)
    | .error s => .error s
  | .map entries =>
    match evalEntries env [] entries with
    | .ok es => .ok (.map es)
    | .error s => .error s
  | .message _ => .error .crash
  | .comprehension item range accu init cond step result =>
    match eval env init with
    | .error s => .error s
    | .ok a =>
      match eval env range with
      | .error s => .error s
      | .ok r =>
        match itemsOf r with
        | .error s => .error s
        | .ok items =>
          let inner := iterate item accu (fun env => eval env cond) (fun env => eval env step)
            env [] a items
          match inner with
          | .error s => .error s
          | .ok env => eval env result

def evalArgs [Regex.Engine] (env : Env) : List Expr → List (Result Value)
  | [] => []
  | e :: es => eval env e :: evalArgs env es

def evalItems [Regex.Engine] (env : Env) : List Expr → Result (List Value)
  | [] => .ok []
  | e :: es =>
    match eval env e with
    | .error s => .error s
    | .ok v =>
      match evalItems env es with
      | .error s => .error s
      | .ok vs => .ok (v :: vs)

def evalEntries [Regex.Engine] (env : Env) :
    List (Key × Value) → List (Expr × Expr) → Result (List (Key × Value))
  -- A key is refused before its value is looked at.
  | done, [] => .ok done
  | done, (k, v) :: rest =>
    match eval env k with
    | .error s => .error s
    | .ok key =>
      match key.toKey? with
      | none => fail (.unsupportedKey key)
      | some key =>
        match eval env v with
        | .error s => .error s
        | .ok value => evalEntries env (Value.insert done key value) rest

end

theorem eval_ident [Regex.Engine] (env : Env) (name : String) :
    eval env (.ident name) =
      match env.lookup name with
      | some v => .ok v
      | none => fail (.unbound name) := by
  rw [eval]

theorem eval_message [Regex.Engine] (env : Env) (fields : List (String × Expr)) :
    eval env (.message fields) = .error .crash := by
  rw [eval]

end CallGuard.Cel
