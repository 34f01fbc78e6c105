import CallGuard.Proofs.Lua.Operations

set_option autoImplicit false

namespace CallGuard.Lua

open Routine

variable {P : TableId → Prop} {base : Heap}

def Operand.Within (P : TableId → Prop) : Operand → Prop
  | .value v => v.Within P
  | .cell _ => True

def Target.Within (P : TableId → Prop) : Target → Prop
  | .cell _ => True
  | .entry t k => t.Within P ∧ k.Within P

theorem ensures_cell (c : CellId) :
    (read fun h => h.cell c).Ensures base (Value.Within base.Shows) :=
  ensures_read fun _ ext => ext.within.cell c

namespace Operand

variable {o : Operand} (within : o.Within base.Shows)

include within

theorem ensures_get : o.get.Ensures base (Value.Within base.Shows) := by
  cases o with
  | value v => exact ensures_pure within
  | cell c => exact ensures_cell c

theorem ensures_settle : o.settle.Ensures base (Operand.Within base.Shows) :=
  (ensures_get within).bind fun _ value => ensures_pure value

theorem ensures_settleIn (later : List Target) :
    (o.settleIn later).Ensures base (Operand.Within base.Shows) := by
  unfold settleIn
  split
  · split
    · exact ensures_settle within
    · exact ensures_pure within
  · exact ensures_pure within

end Operand

theorem ensures_single {r : Routine (List Value)}
    (values : r.Ensures base (Values.Within base.Shows)) :
    (single r).Ensures base (Value.Within base.Shows) :=
  values.bind fun _ within => ensures_pure within.firstOf

theorem ensures_operand (s : Scope) (e : Expr) {r : Routine (List Value)}
    (values : r.Ensures base (Values.Within base.Shows)) :
    (operand s e r).Ensures base (Operand.Within base.Shows) := by
  unfold operand
  split
  · exact ensures_pure trivial
  · exact (ensures_single values).bind fun _ value => ensures_pure value

theorem ensures_environment (s : Scope) :
    (environment s).Ensures base (Value.Within base.Shows) := by
  unfold environment
  split
  · exact ensures_cell _
  · exact ensures_invalid

theorem ensures_readName (s : Scope) (n : String) (line : Nat) :
    (readName s n line).Ensures base (Value.Within base.Shows) := by
  unfold readName
  split
  · exact ensures_cell _
  · exact (ensures_environment s).bind fun _ env =>
      Value.ensures_index (.onLine line) env (text_within n)

theorem ensures_bindAll (names : List String) {vs : List Value} {s : Scope}
    (values : Values.Within base.Shows vs) (scope : s.Within base.Shows) :
    (bindAll names vs s).Ensures base (Scope.Within base.Shows) := by
  induction names generalizing vs s with
  | nil => exact ensures_pure scope
  | cons n names ih =>
    have made : (alloc fun h => h.newCell (firstOf vs)).Safe base :=
      ensures_alloc fun _ ext => ⟨trivial, ext.newCell values.firstOf⟩
    exact made.bind fun c _ => ih values.tail ((bind_within s n c).2 scope)

theorem ensures_newClosure (s : Scope) (f : Function) :
    (newClosure s f).Ensures base (Value.Within base.Shows) := by
  have made : (alloc fun h => h.newFunction ⟨f, s.all⟩).Safe base :=
    ensures_alloc fun _ ext => ⟨trivial, ext.newFunction _⟩
  exact made.bind fun id _ => ensures_pure (function_within id)

theorem ensures_newTable (items others : Nat) :
    (newTable items others).Ensures base fun id => base.tables.size ≤ id :=
  -- A table constructor writes to the table that it makes.
  ensures_alloc fun _ ext => ⟨ext.size, ext.newTable (Table.ofSizes_within items others)⟩

theorem safe_putItems {id : TableId} (fresh : base.tables.size ≤ id) (start : Nat)
    {vs : List Value} (values : Values.Within base.Shows vs) : (putItems id start vs).Safe base :=
  safe_update fun _ ext => ext.modifyTable fresh fun _ table =>
    (table.reserve _).setAll values start

theorem ensures_settleAll {ts : List Target} (targets : ∀ t ∈ ts, t.Within base.Shows) :
    (settleAll ts).Ensures base fun us => ∀ u ∈ us, u.Within base.Shows := by
  induction ts with
  | nil => exact ensures_pure (by simp)
  | cons t later ih =>
    rw [List.forall_mem_cons] at targets
    cases t with
    | cell c =>
      refine (ih targets.2).bind fun us settled => ensures_pure ?_
      rw [List.forall_mem_cons]
      exact ⟨trivial, settled⟩
    | entry t k =>
      refine (Operand.ensures_settleIn targets.1.1 later).bind fun t table => ?_
      refine (Operand.ensures_settleIn targets.1.2 later).bind fun k key => ?_
      refine (ih targets.2).bind fun us settled => ensures_pure ?_
      rw [List.forall_mem_cons]
      exact ⟨⟨table, key⟩, settled⟩

theorem safe_assignAll (site : CallSite) {assignments : List (Target × Value)}
    (within : ∀ a ∈ assignments, a.1.Within base.Shows ∧ a.2.Within base.Shows) :
    (assignAll site assignments).Safe base := by
  induction assignments with
  | nil => exact ensures_pure trivial
  | cons a rest ih =>
    rw [List.forall_mem_cons] at within
    obtain ⟨⟨target, value⟩, later⟩ := within
    refine (ih later).bind fun _ _ => ?_
    obtain ⟨t, v⟩ := a
    cases t with
    | cell c => exact safe_update fun h ext => ext.setCell c value
    | entry t k =>
      exact (Operand.ensures_get target.1).bind fun o object =>
        (Operand.ensures_get target.2).bind fun key within =>
          Value.safe_setIndex site object within value

theorem ensures_nameTarget (s : Scope) (n : String) :
    (nameTarget s n).Ensures base (Target.Within base.Shows) := by
  unfold nameTarget
  split
  · exact ensures_pure trivial
  · refine (ensures_environment s).bind fun _ env => ensures_pure ?_
    exact ⟨env, trivial⟩

theorem afterLoop_within {s : Scope} (scope : s.Within P) {c : Completion} (within : c.Within P) :
    (afterLoop s c).Within P := by
  cases c <;> first | exact scope | exact within

theorem afterBlock_within {s : Scope} (scope : s.Within P) {c : Completion} (within : c.Within P) :
    (afterBlock s c).Within P := by
  cases c <;> first | exact scope | exact within

theorem ensures_startRange (name : String) (body : List Stmt) {s : Scope}
    (scope : s.Within base.Shows) (start limit step : Value) :
    (startRange name body s start limit step).Ensures base (Completion.Within base.Shows) := by
  unfold startRange
  split
  · refine ensures_unless ((safe_ofOption _).bind fun l _ => ?_)
    split
    · exact ensures_pure scope
    · exact ensures_enter scope
  · refine (safe_ofOption _).bind fun limit _ => (safe_ofOption _).bind fun step _ =>
      (safe_ofOption _).bind fun start _ => ensures_unless ?_
    exact ensures_ite (ensures_pure scope) (ensures_enter scope)

theorem ensures_strict (op : BinaryOp) {x : Routine Operand} {y : Routine Value}
    (first : x.Ensures base (Operand.Within base.Shows))
    (second : y.Ensures base (Value.Within base.Shows)) :
    (do
      let x ← x
      let y ← y
      return [← ofOption (op.value? (← x.get) y)] : Routine (List Value)).Ensures base
        (Values.Within base.Shows) := by
  refine first.bind fun x operand => second.bind fun y within => ?_
  refine (Operand.ensures_get operand).bind fun a _ => ?_
  have result : (ofOption (op.value? a y)).Ensures base (Value.Within base.Shows) :=
    ensures_ofOption fun _ found => BinaryOp.value?_within within found
  exact result.bind fun v value => ensures_pure (by simpa using value)

theorem ensures_execBlock {s : Scope} (scope : s.Within base.Shows) {body : List Stmt}
    (all : (execAll s body).Ensures base (Completion.Within base.Shows)) :
    (execBlock s body).Ensures base (Completion.Within base.Shows) := by
  rw [execBlock]
  split
  · exact ensures_enter scope
  · exact all

mutual

theorem ensures_eval {s : Scope} (scope : s.Within base.Shows) :
    ∀ e : Expr, (eval s e).Ensures base (Values.Within base.Shows)
  | .nil => by
    rw [eval]
    exact ensures_pure (by simp)
  | .bool b => by
    rw [eval]
    exact ensures_pure (by simp)
  | .number n => by
    rw [eval]
    exact ensures_pure (by simp [(Value.ofNum_plain n).within])
  | .string bs => by
    rw [eval]
    exact ensures_pure (by simp)
  | .varargs => by
    rw [eval]
    exact ensures_pure scope
  | .function f => by
    rw [eval]
    exact (ensures_newClosure s f).bind fun v value => ensures_pure (by simpa using value)
  | .name n line => by
    rw [eval]
    exact (ensures_readName s n line).bind fun v value => ensures_pure (by simpa using value)
  | .index b key line => by
    rw [eval]
    refine (ensures_operand s b (ensures_eval scope b)).bind fun o object => ?_
    refine (ensures_single (ensures_eval scope key)).bind fun k value => ?_
    refine (Operand.ensures_get object).bind fun t table => ?_
    exact (Value.ensures_index (.onLine line) table value).bind fun v found =>
      ensures_pure (by simpa using found)
  | .call f args line => by
    rw [eval]
    refine (ensures_single (ensures_eval scope f)).bind fun g callee => ?_
    exact (ensures_evalList scope args).bind fun vs values =>
      Value.ensures_call (.onLine line) callee values
  | .method object name args nameLine line => by
    rw [eval]
    refine (ensures_single (ensures_eval scope object)).bind fun o value => ?_
    refine (Value.ensures_index _ value (text_within name)).bind fun f callee => ?_
    refine (ensures_evalList scope args).bind fun vs values => ?_
    exact Value.ensures_call (.onLine line) callee ((values_cons_within o vs).2 ⟨value, values⟩)
  | .unary op e line => by
    rw [eval]
    refine (ensures_single (ensures_eval scope e)).bind fun v value => ?_
    exact (op.ensures_apply (.onLine line) value).bind fun w result =>
      ensures_pure (by simpa using result)
  | .binary op a b line => by
    have first := ensures_single (ensures_eval scope a)
    have second : (do return [← single (eval s b)] : Routine (List Value)).Ensures base
        (Values.Within base.Shows) :=
      (ensures_single (ensures_eval scope b)).bind fun v value =>
        ensures_pure (by simpa using value)
    cases op with
    | and =>
      rw [eval]
      exact first.bind fun x value => ensures_ite second (ensures_pure (by simpa using value))
    | or =>
      rw [eval]
      exact first.bind fun x value => ensures_ite (ensures_pure (by simpa using value)) second
    | concat =>
      rw [eval]
      refine first.bind fun x _ => (ensures_single (ensures_eval scope b)).bind fun y _ => ?_
      have joined : (ofOption (Value.concat? x y)).Ensures base (Value.Within base.Shows) :=
        ensures_ofOption fun _ found => (Value.concat?_plain found).within
      exact joined.bind fun v value => (safe_spend _).bind fun _ _ =>
        ensures_pure (by simpa using value)
    | _ =>
      rw [eval]
      · exact ensures_strict _ (ensures_operand s a (ensures_eval scope a))
          (ensures_single (ensures_eval scope b))
      all_goals simp
  | .paren e => by
    rw [eval]
    exact (ensures_single (ensures_eval scope e)).bind fun v value =>
      ensures_pure (by simpa using value)
  | .table fields => by
    rw [eval]
    refine (ensures_newTable _ _).bind fun id fresh => ?_
    refine (safe_evalFields scope fresh 1 no_values_within fields).bind fun _ _ => ensures_pure ?_
    exact (values_cons_within _ _).2 ⟨Or.inl fresh, no_values_within⟩

theorem ensures_evalList {s : Scope} (scope : s.Within base.Shows) :
    ∀ es : List Expr, (evalList s es).Ensures base (Values.Within base.Shows)
  | [] => by
    rw [evalList]
    exact ensures_pure no_values_within
  | [e] => by
    rw [evalList]
    exact ensures_eval scope e
  | e :: e' :: es => by
    rw [evalList]
    · refine (ensures_single (ensures_eval scope e)).bind fun v value => ?_
      exact (ensures_evalList scope (e' :: es)).bind fun vs values =>
        ensures_pure ((values_cons_within v vs).2 ⟨value, values⟩)
    · simp

theorem safe_evalFields {s : Scope} (scope : s.Within base.Shows) {id : TableId}
    (fresh : base.tables.size ≤ id) (start : Nat) {kept : List Value}
    (within : Values.Within base.Shows kept) :
    ∀ fs : List Field, (evalFields s id start kept fs).Safe base
  | [] => by
    rw [evalFields]
    exact safe_putItems fresh start within.reverse
  | [.item e] => by
    rw [evalFields]
    refine (ensures_eval scope e).bind fun vs values => safe_putItems fresh start ?_
    refine (values_append_within _ _).2 ⟨within.reverse, ?_⟩
    split
    · exact values
    · simpa using values.firstOf
  | .item e :: f :: fs => by
    rw [evalFields]
    · refine (ensures_single (ensures_eval scope e)).bind fun v value => ?_
      have more := (values_cons_within v kept).2 ⟨value, within⟩
      split
      · exact (safe_putItems fresh start more.reverse).bind fun _ _ =>
          safe_evalFields scope fresh (start + batchSize) no_values_within (f :: fs)
      · exact safe_evalFields scope fresh start more (f :: fs)
    · simp
  | .entry key value :: fs => by
    rw [evalFields]
    refine (ensures_operand s key (ensures_eval scope key)).bind fun k operand => ?_
    refine (ensures_single (ensures_eval scope value)).bind fun v within' => ?_
    refine (Operand.ensures_get operand).bind fun k key => ?_
    exact (Value.safe_rawSetIndex fresh key within').bind fun _ _ =>
      safe_evalFields scope fresh start within fs

end

theorem ensures_evalTargets {s : Scope} (scope : s.Within base.Shows) (es : List Expr) :
    (evalTargets s es).Ensures base fun ts => ∀ t ∈ ts, t.Within base.Shows := by
  induction es using evalTargets.induct with
  | case1 =>
    rw [evalTargets]
    exact ensures_pure (by simp)
  | case2 n line es ih =>
    rw [evalTargets]
    refine (ensures_nameTarget s n).bind fun t target => ih.bind fun ts later => ensures_pure ?_
    exact List.forall_mem_cons.2 ⟨target, later⟩
  | case3 b key line es ih =>
    rw [evalTargets]
    refine (ensures_operand s b (ensures_eval scope b)).bind fun t table => ?_
    refine (ensures_operand s key (ensures_eval scope key)).bind fun k key => ?_
    refine ih.bind fun ts later => ensures_pure ?_
    exact List.forall_mem_cons.2 ⟨⟨table, key⟩, later⟩
  | case4 e es notName notIndex ih =>
    rw [evalTargets]
    · exact (ensures_eval scope e).discard.bind fun _ _ => ih
    all_goals assumption

theorem ensures_assign {s : Scope} (scope : s.Within base.Shows) (targets values : List Expr)
    (line : Nat) :
    (exec s (.assign targets values line)).Ensures base (Completion.Within base.Shows) := by
  rw [exec]
  refine (ensures_evalTargets scope targets).bind fun ts found => ?_
  refine (ensures_settleAll found).bind fun ts settled => ?_
  refine (ensures_evalList scope values).bind fun vs within => ?_
  refine (safe_assignAll _ fun a member => ?_).bind fun _ _ => ensures_pure scope
  obtain ⟨target, value⟩ := List.of_mem_zip member
  exact ⟨settled _ target, within.adjust ts.length _ value⟩

theorem ensures_forEach {s : Scope} (scope : s.Within base.Shows) (names : List String)
    (values : List Expr) (body : List Stmt) (line : Nat) :
    (exec s (.forEach names values body line)).Ensures base (Completion.Within base.Shows) := by
  rw [exec]
  refine (ensures_evalList scope values).bind fun vs within => ?_
  have controls := within.adjust 4
  split
  · next f state control closing is =>
    rw [is] at controls
    simp only [values_cons_within] at controls
    obtain ⟨function, state, control, -⟩ := controls
    refine ensures_unless (Ensures.bind (ensures_enter ⟨function, state, control, scope⟩) ?_)
    exact fun c ended => ensures_pure (afterLoop_within scope ended)
  · exact ensures_invalid

theorem ensures_ret {s : Scope} (scope : s.Within base.Shows) (values : List Expr) :
    (exec s (.ret values)).Ensures base (Completion.Within base.Shows) := by
  have plain : (do return .returned (← evalList s values) : Routine Completion).Ensures base
      (Completion.Within base.Shows) :=
    (ensures_evalList scope values).bind fun vs within => ensures_pure within
  -- only a single call or method call is handed to the machine
  rcases values with _ | ⟨e, _ | ⟨e', rest⟩⟩
  · rw [exec] <;> first | exact plain | simp
  · cases e with
    | call f args line =>
      rw [exec]
      refine (ensures_single (ensures_eval scope f)).bind fun g callee => ?_
      exact (ensures_evalList scope args).bind fun vs within => ensures_pure ⟨callee, within⟩
    | method object name args nameLine line =>
      rw [exec]
      refine (ensures_single (ensures_eval scope object)).bind fun o value => ?_
      refine (Value.ensures_index _ value (text_within name)).bind fun f callee => ?_
      refine (ensures_evalList scope args).bind fun vs within => ensures_pure ⟨callee, ?_⟩
      exact (values_cons_within o vs).2 ⟨value, within⟩
    | _ => rw [exec] <;> first | exact plain | simp
  · rw [exec] <;> first | exact plain | simp

mutual

theorem ensures_exec {s : Scope} (scope : s.Within base.Shows) :
    ∀ st : Stmt, (exec s st).Ensures base (Completion.Within base.Shows)
  | .assign targets values line => ensures_assign scope targets values line
  | .call e => by
    rw [exec]
    exact (ensures_eval scope e).discard.bind fun _ _ => ensures_pure scope
  | .block body => by
    rw [exec]
    exact (ensures_execBlock scope (ensures_execAll scope body)).bind fun c ended =>
      ensures_pure (afterBlock_within scope ended)
  | .whileLoop test body => by
    rw [exec]
    refine Ensures.bind (ensures_enter scope) fun c ended => ?_
    exact ensures_pure (afterLoop_within scope ended)
  | .repeatLoop body test => by
    rw [exec]
    refine Ensures.bind (ensures_enter scope) fun c ended => ?_
    exact ensures_pure (afterLoop_within scope ended)
  | .cond test yes no => by
    rw [exec]
    refine (ensures_single (ensures_eval scope test)).bind fun t _ => ?_
    refine ensures_ite ?_ ?_
    · exact (ensures_execBlock scope (ensures_execAll scope yes)).bind fun c ended =>
        ensures_pure (afterBlock_within scope ended)
    · exact (ensures_execBlock scope (ensures_execAll scope no)).bind fun c ended =>
        ensures_pure (afterBlock_within scope ended)
  | .forRange name start limit step body => by
    have range : ∀ i l d, Ensures base (do return afterLoop s (← startRange name body s i l d))
        (Completion.Within base.Shows) := fun i l d =>
      (ensures_startRange name body scope i l d).bind fun c ended =>
        ensures_pure (afterLoop_within scope ended)
    rw [exec]
    refine (ensures_single (ensures_eval scope start)).bind fun i _ => ?_
    refine (ensures_single (ensures_eval scope limit)).bind fun l _ => ?_
    dsimp only
    split
    · next e => exact (ensures_single (ensures_eval scope e)).bind fun d _ => range i l d
    · exact range i l (.int 1)
  | .forEach names values body line => ensures_forEach scope names values body line
  | .locals names values => by
    rw [exec]
    refine (ensures_evalList scope values).bind fun vs within => ensures_unless ?_
    exact (ensures_bindAll _ (within.adjust _) scope).bind fun s scope => ensures_pure scope
  | .localFunction name f => by
    rw [exec]
    refine (ensures_bindAll [name] no_values_within scope).bind fun s scope => ?_
    refine (ensures_newClosure s f).bind fun v value => ?_
    split
    · exact Ensures.bind (safe_update fun h ext => ext.setCell _ value) fun _ _ =>
        ensures_pure scope
    · exact ensures_pure scope
  | .ret values => ensures_ret scope values
  | .leave => by
    rw [exec]
    exact ensures_pure trivial
  | .goto target => by
    rw [exec]
    exact ensures_pure scope
  | .label _ => by
    rw [exec]
    exact ensures_pure scope

theorem ensures_execAll {s : Scope} (scope : s.Within base.Shows) :
    ∀ body : List Stmt, (execAll s body).Ensures base (Completion.Within base.Shows)
  | [] => by
    rw [execAll]
    exact ensures_pure scope
  | st :: rest => by
    rw [execAll]
    refine (ensures_exec scope st).bind fun c ended => ?_
    split
    · exact ensures_execAll ended rest
    · exact ensures_pure ended

end

end CallGuard.Lua
