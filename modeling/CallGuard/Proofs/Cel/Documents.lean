import CallGuard.Proofs.Cel.Parsing
import CallGuard.Proofs.CachedRules

set_option autoImplicit false

namespace CallGuard.Cel

open Rules

namespace Value

theorem ofItems_getElem? (items : List Json) (i : Nat) :
    (ofItems items)[i]? = items[i]?.map ofJson := by
  induction items generalizing i with
  | nil => rfl
  | cons j js ih =>
    cases i with
    | zero => rfl
    | succ i => exact ih i

theorem ofFields_lookup (fields : List (String × Json)) (name : String) :
    (ofFields fields).lookup (.string name) = (Keyed.lookupList name fields).map ofJson := by
  induction fields with
  | nil => rfl
  | cons f fields ih =>
    obtain ⟨first, j⟩ := f
    by_cases same : name = first
    · simp [ofFields, Keyed.lookupList, same]
    · have other : ((Key.string name : Key) == .string first) = false := by simp [same]
      simp [ofFields, Keyed.lookupList, List.lookup_cons, same, other, ih]

theorem contains_string (items : List Json) (s : String) :
    Value.contains (ofItems items) (string s) = true ↔ Json.str s ∈ items := by
  unfold Value.contains
  induction items with
  | nil => simp [ofItems]
  | cons j js ih =>
    have first : (ofJson j).same (string s) = true ↔ Json.str s = j := by
      cases j with
      | num n =>
        cases n with
        | integer i =>
          simp only [ofJson]
          split <;> simp [same]
        | double x => simp [ofJson, same]
      | str t =>
        simp only [ofJson, same, beq_iff_eq, Json.str.injEq]
        exact eq_comm
      | _ => simp [ofJson, same]
    simp only [ofItems, List.any_cons, Bool.or_eq_true, List.mem_cons, first, ih]

theorem same_integers {a b : Int} (low : -0x8000000000000000 ≤ a ∧ -0x8000000000000000 ≤ b) :
    (ofJson (.num (.integer a))).same (ofJson (.num (.integer b))) = decide (a = b) := by
  have kind {i : Int} (low : -0x8000000000000000 ≤ i) :
      ofJson (.num (.integer i)) = int i ∨ 0 ≤ i ∧ ofJson (.num (.integer i)) = uint i.toNat := by
    simp only [ofJson]
    split
    · exact .inl rfl
    · next unfit =>
      simp only [fitsInt, Bool.and_eq_true, decide_eq_true_eq, not_and] at unfit
      exact .inr ⟨by omega, rfl⟩
  rcases kind low.1 with small | ⟨positive, large⟩
  · rw [small]
    rcases kind low.2 with small' | ⟨positive', large'⟩
    · rw [small', same, Bool.eq_iff_iff]
      simp
    · rw [large', same, Bool.eq_iff_iff]
      simp [Int.toNat_of_nonneg positive']
  · rw [large]
    rcases kind low.2 with small' | ⟨positive', large'⟩
    · rw [small', same, Bool.eq_iff_iff]
      simp [Int.toNat_of_nonneg positive]
    · rw [large', same, Bool.eq_iff_iff]
      simp only [beq_iff_eq, decide_eq_true_eq]
      omega

end Value

theorem index_child {j k : Json} {step : Json.Step} (child : j.child? step = some k) :
    (∀ name, step = .key name → index (.ofJson j) (.string name) = .ok (.ofJson k)) ∧
      ∀ i : Nat, step = .position i → index (.ofJson j) (.int i) = .ok (.ofJson k) := by
  constructor
  · rintro name rfl
    cases j with
    | obj fields =>
      have found : Keyed.lookupList name fields = some k := child
      simp [Value.ofJson, index, Value.ofFields_lookup, found, orNull]
    | _ => cases child
  · rintro i rfl
    cases j with
    | arr items =>
      have found : items[i]? = some k := child
      simp [Value.ofJson, index, Value.ofItems_getElem?, found, orNull]
    | _ => cases child

theorem eval_follow [Regex.Engine] {env : Env} {e : Expr} {j k : Json} {path : List Json.Step}
    (base : eval env e = .ok (.ofJson j)) (found : j.at? path = some k) :
    eval env (e.follow path) = .ok (.ofJson k) := by
  induction path generalizing e j with
  | nil =>
    cases found
    exact base
  | cons step path ih =>
    obtain ⟨child, here, later⟩ := Option.bind_eq_some_iff.1 found
    obtain ⟨byName, byPosition⟩ := index_child here
    cases step with
    | key name =>
      refine ih ?_ later
      simp [eval, base, Literal.toValue, BinaryOp.apply, byName name rfl]
    | position i =>
      refine ih ?_ later
      simp [eval, base, Literal.toValue, BinaryOp.apply, byPosition i rfl]

theorem lookup_ofContext (c : Context) (v : Variable) :
    (Env.ofContext c).lookup v.name = some (valueOf c v) := by
  cases v <;> rfl

theorem ofFields_texts (entries : List (String × String)) :
    Value.ofFields (entries.map fun e => (e.1, .str e.2)) =
      entries.map fun e => (.string e.1, .string e.2) := by
  induction entries with
  | nil => rfl
  | cons e entries ih => simp [Value.ofFields, Value.ofJson, ih]

theorem valueOf_document (c : Context) (v : Variable) : valueOf c v = .ofJson (c.document v) := by
  cases v with
  | metadata =>
    rw [Context.document, Value.ofJson, ofFields_texts]
    rfl
  | _ => rfl

theorem eval_variable [Regex.Engine] (c : Context) (v : Variable) :
    eval (.ofContext c) (.ident v.name) = .ok (.ofJson (c.document v)) := by
  simp [eval, lookup_ofContext, valueOf_document]

variable {c : Context} {v : Variable} {k : Json}

theorem verdict_of_eval [Regex.Engine] {text : String} {e : Expr} {value : Value}
    (compiled : compile text = .ok e) (onTime : c.deadlinePassed = false)
    (evaluated : eval (.ofContext c) e = .ok value) :
    verdict compile run c text = outcomeOf text (.ok value) := by
  simp [verdict, compiled, run, onTime, evaluated]

theorem verdict_path [Regex.Engine] {path : List Json.Step} {indices : String}
    (spelled : PathSpelled Token.IsLiteral 0 path indices.toList) (writable : IsWritable path)
    (found : (c.document v).at? path = some k) (onTime : c.deadlinePassed = false) :
    verdict compile run c (v.name ++ indices) =
      outcomeOf (v.name ++ indices) (.ok (Value.ofJson k)) :=
  verdict_of_eval (compile_path spelled writable) onTime (eval_follow (eval_variable c v) found)

theorem outcomeOf_document (text : String) (k : Json) :
    Answered text k (outcomeOf text (.ok (Value.ofJson k))) := by
  constructor
  · rintro b rfl
    rfl
  · intro other
    cases k with
    | bool b => exact absurd rfl (other b)
    | num n =>
      cases n with
      | integer i =>
        simp only [Value.ofJson]
        split <;> exact ⟨_, rfl⟩
      | double x => exact ⟨_, rfl⟩
    | _ => exact ⟨_, rfl⟩

theorem eval_field [Regex.Engine] {field : String}
    (found : (c.document v).at? [.key field] = some k) :
    eval (.ofContext c) (.select (.ident v.name) field) = .ok (.ofJson k) := by
  obtain ⟨child, entry, same⟩ := Option.bind_eq_some_iff.1 found
  cases same
  have document := valueOf_document c v
  cases shape : c.document v with
  | obj fields =>
    rw [shape] at entry document
    have entry : Keyed.lookupList field fields = some k := entry
    simp [eval, lookup_ofContext, document, Value.ofJson, selectField, Value.ofFields_lookup,
      entry]
  | _ =>
    rw [shape] at entry
    cases entry

theorem verdict_member [Regex.Engine] {literal field s : String} {items : List Json}
    (spelled : Token.IsLiteral literal.toList s) (word : IsIdentifier field)
    (free : Reader.isReserved field = false)
    (found : (c.document v).at? [.key field] = some (.arr items))
    (onTime : c.deadlinePassed = false) :
    ∃ b, verdict compile run c (literal ++ " in " ++ v.name ++ "." ++ field) = .ok b ∧
      (b = true ↔ Json.str s ∈ items) := by
  refine ⟨_, ?_, Value.contains_string items s⟩
  have list : eval (.ofContext c) (.select (.ident v.name) field) =
      .ok (.list (Value.ofItems items)) := by
    rw [eval_field found, Value.ofJson]
  have answer : eval (.ofContext c)
      (.binary .member (.literal (.string s)) (.select (.ident v.name) field)) =
        .ok (.bool (Value.contains (Value.ofItems items) (.string s))) := by
    generalize Expr.select (.ident v.name) field = e at list
    simp [eval, list, Literal.toValue, BinaryOp.apply, member]
  rw [verdict_of_eval (compile_member spelled word free) onTime answer]
  rfl

theorem verdict_metadata [Regex.Engine] {key literal name s text : String}
    (first : Token.IsLiteral key.toList name) (second : Token.IsLiteral literal.toList s)
    (present : c.metadata.get? name = some text) (onTime : c.deadlinePassed = false) :
    verdict compile run c (Variable.metadata.name ++ "[" ++ key ++ "] == " ++ literal) =
      .ok (text == s) := by
  have entry : eval (.ofContext c) (.binary .index (.ident Variable.metadata.name)
      (.literal (.string name))) = .ok (.string text) :=
    eval_follow (eval_variable c .metadata) (Context.metadata_at present)
  have answer : eval (.ofContext c) (.binary .eq (.binary .index (.ident Variable.metadata.name)
      (.literal (.string name))) (.literal (.string s))) = .ok (.bool (text == s)) := by
    generalize Expr.binary .index (.ident Variable.metadata.name)
      (.literal (.string name)) = e at entry
    simp [eval, entry, Literal.toValue, BinaryOp.apply, Value.same]
  rw [verdict_of_eval (compile_equal first second) onTime answer]
  rfl

end CallGuard.Cel
