import CallGuard.Proofs.Lua.Paired.Names

set_option autoImplicit false

namespace CallGuard.Lua

open Routine

variable {p : Pairing}

section

variable (lawful : p.Lawful)

include lawful

theorem paired_readName {s : Scope} (scope : s.Fits p) {n : String} (said : p.Says ⟨n, .read⟩)
    (line : Nat) : (readName s n line).Paired p (readName (s.rename p.move) n line) p.ofValue :=
  paired_variable scope (lawful.named _ said) line (fun _ fits => fits)
    (lawful.readGlobal n (.onLine line) said)

theorem paired_strict (op : BinaryOp) {x x' : Routine Operand} {y y' : Routine Value}
    (first : x.Paired p x' p.ofOperand) (second : y.Paired p y' p.ofValue) :
    (do
      let x ← x
      let y ← y
      return [← ofOption (op.value? (← x.get) y)]).Paired p
    (do
      let x ← x'
      let y ← y'
      return [← ofOption (op.value? (← x.get) y)]) p.ofValues :=
  first.bind fun _ operand => second.bind fun _ fits =>
    (Operand.paired_get operand).bind fun _ _ => paired_wrapped (op.paired_value? lawful fits)

end

mutual

theorem paired_eval (lawful : p.Lawful) {s : Scope} (scope : s.Fits p) :
    ∀ e : Expr, p.Speaks e.mentions →
      (eval s e).Paired p (eval (s.rename p.move) e) p.ofValues
  | .nil, _ => by
    rw [eval, eval]
    exact paired_return nil_fits
  | .bool b, _ => by
    rw [eval, eval]
    exact paired_return (bool_fits b)
  | .number n, _ => by
    rw [eval, eval]
    exact paired_pure_plains (by simp [Value.ofNum_plain])
  | .string bs, _ => by
    rw [eval, eval]
    exact paired_return (string_fits bs)
  | .varargs, _ => by
    rw [eval, eval]
    exact paired_pure ⟨scope.varargs, rfl⟩
  | .function f, said => by
    rw [Expr.mentions] at said
    rw [eval, eval]
    exact paired_wrapped (paired_newClosure scope said)
  | .name n line, said => by
    rw [Expr.mentions, Pairing.speaks_cons] at said
    rw [eval, eval]
    exact paired_wrapped (paired_readName lawful scope said.1 line)
  | .index b key line, said => by
    rw [Expr.mentions, Pairing.speaks_append] at said
    rw [eval, eval]
    refine (paired_operand scope said.1 lawful.named (paired_eval lawful scope b said.1)).bind
      fun o object => ?_
    refine (paired_single (paired_eval lawful scope key said.2)).bind fun k value => ?_
    refine (Operand.paired_get object).bind fun t table => ?_
    exact paired_wrapped (Value.paired_index lawful (.onLine line) table value)
  | .call f args line, said => by
    rw [Expr.mentions, Pairing.speaks_append] at said
    rw [eval, eval]
    refine (paired_single (paired_eval lawful scope f said.1)).bind fun g callee => ?_
    exact (paired_evalList lawful scope args said.2).bind fun vs values =>
      Value.paired_call lawful (.onLine line) callee values
  | .method object name args nameLine line, said => by
    rw [Expr.mentions, Pairing.speaks_append] at said
    rw [eval, eval]
    refine (paired_single (paired_eval lawful scope object said.1)).bind fun o value => ?_
    refine (Value.paired_index lawful (.onLine nameLine) value (text_fits name)).bind
      fun f callee => ?_
    refine (paired_evalList lawful scope args said.2).bind fun vs values => ?_
    exact Value.paired_call lawful (.onLine line) callee ((values_cons_fit o vs).2 ⟨value, values⟩)
  | .unary op e line, said => by
    rw [Expr.mentions] at said
    rw [eval, eval]
    exact (paired_single (paired_eval lawful scope e said)).bind fun v value =>
      paired_wrapped (op.paired_apply lawful (.onLine line) value)
  | .binary op a b line, said => by
    rw [Expr.mentions, Pairing.speaks_append] at said
    have first := paired_single (paired_eval lawful scope a said.1)
    have second := paired_single (paired_eval lawful scope b said.2)
    cases op with
    | and =>
      rw [eval, eval]
      exact first.bind fun x value => paired_ite (by rw [Value.truth_rename])
        (paired_wrapped second) (paired_return value)
    | or =>
      rw [eval, eval]
      exact first.bind fun x value => paired_ite (by rw [Value.truth_rename])
        (paired_return value) (paired_wrapped second)
    | concat =>
      rw [eval, eval]
      refine first.bind fun x _ => second.bind fun y _ => ?_
      rw [Value.concat?_rename]
      refine (paired_plain fun _ => Value.concat?_plain).bind fun v value => ?_
      exact (paired_spend (by rw [Value.byteCount_rename])).next fun _ => paired_return value
    | _ =>
      rw [eval, eval]
      · exact paired_strict lawful _
          (paired_operand scope said.1 lawful.named (paired_eval lawful scope a said.1)) second
      all_goals simp
  | .paren e, said => by
    rw [Expr.mentions] at said
    rw [eval, eval]
    exact paired_wrapped (paired_single (paired_eval lawful scope e said))
  | .table fields, said => by
    rw [Expr.mentions] at said
    rw [eval, eval]
    refine (paired_newTable lawful _ _).bind fun id writable => ?_
    refine (paired_evalFields lawful scope writable 1 no_values_fit fields said).next fun _ => ?_
    have table : (Value.table id).Fits p := writable.2
    exact paired_return table

theorem paired_evalList (lawful : p.Lawful) {s : Scope} (scope : s.Fits p) :
    ∀ es : List Expr, p.Speaks (Exprs.mentions es) →
      (evalList s es).Paired p (evalList (s.rename p.move) es) p.ofValues
  | [], _ => by
    rw [evalList, evalList]
    exact paired_pure ⟨no_values_fit, rfl⟩
  | [e], said => by
    rw [Exprs.mentions, Pairing.speaks_append] at said
    rw [evalList, evalList]
    exact paired_eval lawful scope e said.1
  | e :: e' :: es, said => by
    rw [Exprs.mentions, Pairing.speaks_append] at said
    rw [evalList.eq_3 s _ _ (by simp), evalList.eq_3 (s.rename p.move) _ _ (by simp)]
    refine (paired_single (paired_eval lawful scope e said.1)).bind fun v value => ?_
    exact (paired_evalList lawful scope (e' :: es) said.2).bind fun vs values =>
      paired_pure ⟨(values_cons_fit v vs).2 ⟨value, values⟩, rfl⟩

theorem paired_evalFields (lawful : p.Lawful) {s : Scope} (scope : s.Fits p) {id : TableId}
    (writable : p.Writable id) (start : Nat) {kept : List Value} (fits : Values.Fits p kept) :
    ∀ fs : List Field, p.Speaks (Fields.mentions fs) →
      (evalFields s id start kept fs).Paired p
        (evalFields (s.rename p.move) (p.move id) start (Values.rename p.move kept) fs) Eq
  | [], _ => by
    rw [evalFields, evalFields, ← List.map_reverse]
    exact paired_putItems lawful writable start fits.reverse
  | [.item e], said => by
    rw [Fields.mentions, Pairing.speaks_append] at said
    rw [evalFields, evalFields]
    refine (paired_eval lawful scope e said.1).bind fun vs values => ?_
    have last : Values.Fits p (if isOpen e then vs else [firstOf vs]) := by
      split
      · exact values
      · simpa using values.firstOf
    have moved : (Values.rename p.move kept).reverse ++
        (if isOpen e then Values.rename p.move vs else [firstOf (Values.rename p.move vs)]) =
        Values.rename p.move (kept.reverse ++ if isOpen e then vs else [firstOf vs]) := by
      rw [firstOf_rename]
      split <;> simp
    rw [moved]
    exact paired_putItems lawful writable start
      ((values_append_fit _ _).2 ⟨fits.reverse, last⟩)
  | .item e :: f :: fs, said => by
    rw [Fields.mentions, Pairing.speaks_append] at said
    rw [evalFields, evalFields]
    · refine (paired_single (paired_eval lawful scope e said.1)).bind fun v value => ?_
      have more := (values_cons_fit v kept).2 ⟨value, fits⟩
      refine paired_ite (by rw [List.length_map]) ?_ ?_
      · rw [← List.map_cons, ← List.map_reverse]
        exact (paired_putItems lawful writable start more.reverse).next fun _ =>
          paired_evalFields lawful scope writable (start + batchSize) no_values_fit (f :: fs) said.2
      · exact paired_evalFields lawful scope writable start more (f :: fs) said.2
    all_goals simp
  | .entry key value :: fs, said => by
    rw [Fields.mentions, Pairing.speaks_append, Pairing.speaks_append] at said
    rw [evalFields, evalFields]
    refine (paired_operand scope said.1.1 lawful.named (paired_eval lawful scope key said.1.1)).bind
      fun k operand => ?_
    refine (paired_single (paired_eval lawful scope value said.1.2)).bind fun v fits' => ?_
    refine (Operand.paired_get operand).bind fun k key => ?_
    refine (Value.paired_rawSetIndex lawful writable.1 writable.2 key fits').next fun _ => ?_
    exact paired_evalFields lawful scope writable start fits fs said.2

end

theorem paired_evalTargets (lawful : p.Lawful) {s : Scope} (scope : s.Fits p) (es : List Expr)
    (said : p.Speaks (Targets.mentions es)) :
    (evalTargets s es).Paired p (evalTargets (s.rename p.move) es) p.ofTargets := by
  have joined : ∀ (t : Target) {ts ts' : Routine (List Target)}, t.Fits p →
      ts.Paired p ts' p.ofTargets →
        (do return t :: (← ts)).Paired p (do return t.rename p.move :: (← ts')) p.ofTargets :=
    fun t _ _ fits rest => rest.bind fun ts later =>
      paired_pure ⟨List.forall_mem_cons.2 ⟨fits, later⟩, rfl⟩
  induction es using evalTargets.induct with
  | case1 =>
    rw [evalTargets, evalTargets]
    exact paired_pure ⟨List.forall_mem_nil _, rfl⟩
  | case2 n line es ih =>
    rw [Targets.mentions, Pairing.speaks_cons] at said
    rw [evalTargets, evalTargets]
    exact (paired_nameTarget scope (lawful.named _ said.1) said.1).bind fun t target =>
      joined t target (ih said.2)
  | case3 b key line es ih =>
    rw [Targets.mentions, Expr.mentions, Pairing.speaks_append, Pairing.speaks_append] at said
    · rw [evalTargets, evalTargets]
      refine (paired_operand scope said.1.1 lawful.named
        (paired_eval lawful scope b said.1.1)).bind fun t table => ?_
      refine (paired_operand scope said.1.2 lawful.named
        (paired_eval lawful scope key said.1.2)).bind fun k key => ?_
      exact joined _ (.entry table key) (ih said.2)
    all_goals simp
  | case4 e es notName notIndex ih =>
    rw [Targets.mentions, Pairing.speaks_append] at said
    · rw [evalTargets, evalTargets]
      · exact (paired_eval lawful scope e said.1).discard.next fun _ => ih said.2
      all_goals assumption
    all_goals assumption

end CallGuard.Lua
