import CallGuard.Cel.Reader

set_option autoImplicit false

namespace CallGuard.Cel

open CallGuard.Cel.Expr

inductive Written : Expr → Prop
  | literal (value : Literal) : Written (.literal value)
  | ident (name : String) : Written (.ident name)
  | select (e : Expr) (field : String) (operand : Written e) : Written (.select e field)
  | has (e : Expr) (field : String) (operand : Written e) : Written (.has e field)
  | unary (op : UnaryOp) (e : Expr) (operand : Written e) : Written (.unary op e)
  | binary (op : BinaryOp) (a b : Expr) (left : Written a) (right : Written b) :
    Written (.binary op a b)
  | conditional (a b c : Expr) (test : Written a) (yes : Written b) (no : Written c) :
    Written (.conditional a b c)
  | call (function : String) (args : List Expr) (all : ∀ e ∈ args, Written e) :
    Written (.call function args)
  | method (e : Expr) (function : String) (args : List Expr) (target : Written e)
      (all : ∀ e ∈ args, Written e) :
    Written (.method e function args)
  | list (items : List Expr) (all : ∀ e ∈ items, Written e) : Written (.list items)
  | map (entries : List (Expr × Expr)) (keys : ∀ entry ∈ entries, Written entry.1)
      (values : ∀ entry ∈ entries, Written entry.2) :
    Written (.map entries)
  | message (fields : List (String × Expr)) (all : ∀ field ∈ fields, Written field.2) :
    Written (.message fields)
  | allMacro (e p : Expr) (item : String) (range : Written e) (test : Written p) :
    Written (allMacro e item p)
  | existsMacro (e p : Expr) (item : String) (range : Written e) (test : Written p) :
    Written (existsMacro e item p)
  | existsOneMacro (e p : Expr) (item : String) (range : Written e) (test : Written p) :
    Written (existsOneMacro e item p)
  | mapMacro (e f : Expr) (item : String) (range : Written e) (image : Written f) :
    Written (mapMacro e item none f)
  | mapSomeMacro (e p f : Expr) (item : String) (range : Written e) (test : Written p)
      (image : Written f) :
    Written (mapMacro e item (some p) f)
  | filterMacro (e p : Expr) (item : String) (range : Written e) (test : Written p) :
    Written (filterMacro e item p)

theorem callOf?_written {function : String} {args : List Expr} {e : Expr}
    (expands : callOf? function args = some e) (all : ∀ e ∈ args, Written e) : Written e := by
  unfold callOf? at expands
  split at expands
  · rename_i operand
    have operand := all operand (by simp)
    unfold hasMacro? at expands
    split at expands
    · cases operand
      cases expands
      exact .has _ _ ‹_›
    · cases operand
      cases expands
      exact .has _ _ ‹_›
    · cases expands
  · cases expands
    exact .call _ _ all

theorem methodOf?_written {target : Expr} {function : String} {args : List Expr} {e : Expr}
    (expands : target.methodOf? function args = some e) (written : Written target)
    (all : ∀ e ∈ args, Written e) : Written e := by
  unfold methodOf? at expands
  split at expands
  case h_8 =>
    cases expands
    exact .method _ _ _ written all
  case h_6 x p f =>
    obtain ⟨item, -, rfl⟩ := Option.map_eq_some_iff.1 expands
    exact .mapSomeMacro _ _ _ item written (all p (by simp)) (all f (by simp))
  all_goals
    rename_i x p
    obtain ⟨item, -, rfl⟩ := Option.map_eq_some_iff.1 expands
    have inner := all p (by simp)
  · exact .allMacro _ _ item written inner
  · exact .existsMacro _ _ item written inner
  · exact .existsOneMacro _ _ item written inner
  · exact .existsOneMacro _ _ item written inner
  · exact .mapMacro _ _ item written inner
  · exact .filterMacro _ _ item written inner

namespace Reader

def Yields {α : Type} (P : α → Prop) (read : Option (α × List Token)) : Prop :=
  ∀ a rest, read = some (a, rest) → P a

theorem Yields.none {α : Type} {P : α → Prop} : Yields P none := by
  rintro a rest ⟨⟩

theorem Yields.some {α : Type} {P : α → Prop} {a : α} {rest : List Token} (holds : P a) :
    Yields P (some (a, rest)) := by
  rintro a rest ⟨⟩
  exact holds

def AllWritten (es : List Expr) : Prop := ∀ e ∈ es, Written e

def EntriesWritten (entries : List (Expr × Expr)) : Prop :=
  ∀ entry ∈ entries, Written entry.1 ∧ Written entry.2

def FieldsWritten (fields : List (String × Expr)) : Prop := ∀ field ∈ fields, Written field.2

structure ReadsWritten (fuel : Nat) : Prop where
  expr (ts : List Token) : Yields Written (expr? fuel ts)
  or (ts : List Token) : Yields Written (or? fuel ts)
  orRest (left : Expr) (ts : List Token) : Written left → Yields Written (orRest? fuel left ts)
  and (ts : List Token) : Yields Written (and? fuel ts)
  andRest (left : Expr) (ts : List Token) : Written left → Yields Written (andRest? fuel left ts)
  relation (ts : List Token) : Yields Written (relation? fuel ts)
  relationRest (left : Expr) (ts : List Token) :
    Written left → Yields Written (relationRest? fuel left ts)
  sum (ts : List Token) : Yields Written (sum? fuel ts)
  sumRest (left : Expr) (ts : List Token) : Written left → Yields Written (sumRest? fuel left ts)
  product (ts : List Token) : Yields Written (product? fuel ts)
  productRest (left : Expr) (ts : List Token) :
    Written left → Yields Written (productRest? fuel left ts)
  signed (ts : List Token) : Yields Written (signed? fuel ts)
  member (ts : List Token) : Yields Written (member? fuel ts)
  memberRest (e : Expr) (ts : List Token) : Written e → Yields Written (memberRest? fuel e ts)
  arguments (ts : List Token) : Yields AllWritten (arguments? fuel ts)
  items (ts : List Token) : Yields AllWritten (items? fuel ts)
  entries (ts : List Token) : Yields EntriesWritten (entries? fuel ts)
  fields (ts : List Token) : Yields FieldsWritten (fields? fuel ts)
  primary (ts : List Token) : Yields Written (primary? fuel ts)
  named (ts : List Token) : Yields Written (named? fuel ts)

theorem intLiteral?_written (negative : Bool) (n : Nat) (hexadecimal : Bool) (rest : List Token) :
    Yields Written ((intLiteral? negative n hexadecimal).map (·, rest)) := by
  intro e rest found
  obtain ⟨l, read, ⟨⟩⟩ := Option.map_eq_some_iff.1 found
  unfold intLiteral? at read
  split at read <;> split at read <;> cases read
  · exact .literal _
  · exact .literal _

-- What follows an operand, for the operators of one level.
def chain? (op? : Token → Option BinaryOp) (operand? : List Token → Option (Expr × List Token))
    (again? : Expr → List Token → Option (Expr × List Token)) (left : Expr) :
    List Token → Option (Expr × List Token)
  | [] => some (left, [])
  | t :: rest =>
    match op? t with
    | none => some (left, t :: rest)
    | some op =>
      match operand? rest with
      | some (right, rest) => again? (.binary op left right) rest
      | none => none

theorem chain?_written {op? : Token → Option BinaryOp}
    {operand? : List Token → Option (Expr × List Token)}
    {again? : Expr → List Token → Option (Expr × List Token)} {left : Expr} (ts : List Token)
    (operands : ∀ ts, Yields Written (operand? ts))
    (more : ∀ left ts, Written left → Yields Written (again? left ts)) (written : Written left) :
    Yields Written (chain? op? operand? again? left ts) := by
  cases ts with
  | nil => exact .some written
  | cons t rest =>
    cases known : op? t with
    | none =>
      simp only [chain?, known]
      exact .some written
    | some op =>
      simp only [chain?, known]
      split
      · exact more _ _ (.binary _ _ _ written (operands _ _ _ ‹_›))
      · exact .none

theorem relationRest?_eq (fuel : Nat) (left : Expr) (ts : List Token) :
    relationRest? (fuel + 1) left ts =
      chain? relationToken? (sum? fuel) (relationRest? fuel) left ts := by
  cases ts <;> rfl

theorem sumRest?_eq (fuel : Nat) (left : Expr) (ts : List Token) :
    sumRest? (fuel + 1) left ts = chain? sumToken? (product? fuel) (sumRest? fuel) left ts := by
  cases ts <;> rfl

theorem productRest?_eq (fuel : Nat) (left : Expr) (ts : List Token) :
    productRest? (fuel + 1) left ts =
      chain? productToken? (signed? fuel) (productRest? fuel) left ts := by
  cases ts <;> rfl

section

variable {fuel : Nat} (ih : ReadsWritten fuel)

include ih

theorem expr_step (ts : List Token) : Yields Written (expr? (fuel + 1) ts) := by
  unfold expr?
  split
  · have test := ih.or _ _ _ ‹_›
    split
    · have yes := ih.or _ _ _ ‹_›
      split
      · exact .some (.conditional _ _ _ test yes (ih.expr _ _ _ ‹_›))
      · exact .none
    · exact .none
  · exact ih.or _

theorem or_step (ts : List Token) : Yields Written (or? (fuel + 1) ts) := by
  unfold or?
  split
  · exact ih.orRest _ _ (ih.and _ _ _ ‹_›)
  · exact .none

theorem orRest_step (left : Expr) (ts : List Token) (written : Written left) :
    Yields Written (orRest? (fuel + 1) left ts) := by
  unfold orRest?
  split
  · contradiction
  · cases ‹_ + 1 = _ + 1›
    split
    · exact ih.orRest _ _ (.binary _ _ _ written (ih.and _ _ _ ‹_›))
    · exact .none
  · exact .some written

theorem and_step (ts : List Token) : Yields Written (and? (fuel + 1) ts) := by
  unfold and?
  split
  · exact ih.andRest _ _ (ih.relation _ _ _ ‹_›)
  · exact .none

theorem andRest_step (left : Expr) (ts : List Token) (written : Written left) :
    Yields Written (andRest? (fuel + 1) left ts) := by
  unfold andRest?
  split
  · contradiction
  · cases ‹_ + 1 = _ + 1›
    split
    · exact ih.andRest _ _ (.binary _ _ _ written (ih.relation _ _ _ ‹_›))
    · exact .none
  · exact .some written

theorem relation_step (ts : List Token) : Yields Written (relation? (fuel + 1) ts) := by
  unfold relation?
  split
  · exact ih.relationRest _ _ (ih.sum _ _ _ ‹_›)
  · exact .none

theorem relationRest_step (left : Expr) (ts : List Token) (written : Written left) :
    Yields Written (relationRest? (fuel + 1) left ts) := by
  rw [relationRest?_eq]
  exact chain?_written ts ih.sum ih.relationRest written

theorem sum_step (ts : List Token) : Yields Written (sum? (fuel + 1) ts) := by
  unfold sum?
  split
  · exact ih.sumRest _ _ (ih.product _ _ _ ‹_›)
  · exact .none

theorem sumRest_step (left : Expr) (ts : List Token) (written : Written left) :
    Yields Written (sumRest? (fuel + 1) left ts) := by
  rw [sumRest?_eq]
  exact chain?_written ts ih.product ih.sumRest written

theorem product_step (ts : List Token) : Yields Written (product? (fuel + 1) ts) := by
  unfold product?
  split
  · exact ih.productRest _ _ (ih.signed _ _ _ ‹_›)
  · exact .none

theorem productRest_step (left : Expr) (ts : List Token) (written : Written left) :
    Yields Written (productRest? (fuel + 1) left ts) := by
  rw [productRest?_eq]
  exact chain?_written ts ih.signed ih.productRest written

theorem signed_step (ts : List Token) : Yields Written (signed? (fuel + 1) ts) := by
  unfold signed?
  split
  · exact ih.member _
  · split
    · split
      · exact .some (.unary _ _ (ih.member _ _ _ ‹_›))
      · exact .none
    · split
      · exact .some (.unary _ _ (ih.member _ _ _ ‹_›))
      · exact .none
    · exact ih.member _

theorem member_step (ts : List Token) : Yields Written (member? (fuel + 1) ts) := by
  unfold member?
  split
  · exact ih.memberRest _ _ (ih.primary _ _ _ ‹_›)
  · exact .none

theorem memberRest_step (e : Expr) (ts : List Token) (written : Written e) :
    Yields Written (memberRest? (fuel + 1) e ts) := by
  unfold memberRest?
  split
  · contradiction
  · cases ‹_ + 1 = _ + 1›
    split
    · split
      · exact .none
      · have args := ih.arguments _ _ _ ‹_›
        split
        · exact ih.memberRest _ _ (methodOf?_written ‹_› written args)
        · exact .none
    · split
      · exact ih.memberRest _ _ (.select _ _ written)
      · exact .none
  · cases ‹_ + 1 = _ + 1›
    split
    · exact ih.memberRest _ _ (.binary _ _ _ written (ih.expr _ _ _ ‹_›))
    · exact .none
  · exact .some written

theorem arguments_step (ts : List Token) : Yields AllWritten (arguments? (fuel + 1) ts) := by
  unfold arguments?
  split
  · exact .some (by simp [AllWritten])
  · split
    · exact .some (ih.items _ _ _ ‹_›)
    · exact .none

theorem items_step (ts : List Token) : Yields AllWritten (items? (fuel + 1) ts) := by
  unfold items?
  split
  · exact .none
  · have first := ih.expr _ _ _ ‹_›
    split
    · have others := ih.items _ _ _ ‹_›
      exact .some (List.forall_mem_cons.2 ⟨first, others⟩)
    · exact .some (by simpa [AllWritten] using first)
  · have only := ih.expr _ _ _ ‹_›
    exact .some (by simpa [AllWritten] using only)

theorem entries_step (ts : List Token) : Yields EntriesWritten (entries? (fuel + 1) ts) := by
  unfold entries?
  split
  · have key := ih.expr _ _ _ ‹_›
    split
    · exact .none
    · have value := ih.expr _ _ _ ‹_›
      split
      · have others := ih.entries _ _ _ ‹_›
        exact .some (List.forall_mem_cons.2 ⟨⟨key, value⟩, others⟩)
      · exact .some (by simp [EntriesWritten, key, value])
    · have value := ih.expr _ _ _ ‹_›
      exact .some (by simp [EntriesWritten, key, value])
  · exact .none

theorem fields_step (ts : List Token) : Yields FieldsWritten (fields? (fuel + 1) ts) := by
  unfold fields?
  split
  · split
    · have value := ih.expr _ _ _ ‹_›
      split
      · have others := ih.fields _ _ _ ‹_›
        exact .some (List.forall_mem_cons.2 ⟨value, others⟩)
      · exact .some (by simpa [FieldsWritten] using value)
    · have value := ih.expr _ _ _ ‹_›
      exact .some (by simpa [FieldsWritten] using value)
    · exact .none
  · exact .none

theorem primary_step (ts : List Token) : Yields Written (primary? (fuel + 1) ts) := by
  unfold primary?
  split
  · split
    · exact .some (ih.expr _ _ _ ‹_›)
    · exact .none
  · split
    · exact .some (.list _ (by simp))
    · exact .some (.list _ (by simp))
    · split
      · exact .some (.list _ (ih.items _ _ _ ‹_›))
      · exact .some (.list _ (ih.items _ _ _ ‹_›))
      · exact .none
  · split
    · exact .some (.map _ (by simp) (by simp))
    · exact .some (.map _ (by simp) (by simp))
    · split
      · have entries := ih.entries _ _ _ ‹_›
        exact .some (.map _ (fun e h => (entries e h).1) fun e h => (entries e h).2)
      · have entries := ih.entries _ _ _ ‹_›
        exact .some (.map _ (fun e h => (entries e h).1) fun e h => (entries e h).2)
      · exact .none
  · exact intLiteral?_written _ _ _ _
  · exact .some (.literal _)
  · exact intLiteral?_written _ _ _ _
  · exact .some (.literal _)
  · exact .some (.literal _)
  · exact .some (.literal _)
  · exact .some (.literal _)
  · exact .some (.literal _)
  · exact .some (.literal _)
  · exact .some (.literal _)
  · exact ih.named _
  · exact ih.named _

theorem named_step (ts : List Token) : Yields Written (named? (fuel + 1) ts) := by
  unfold named?
  split
  · split
    · exact .some (.message _ (by simp))
    · exact .some (.message _ (by simp))
    · split
      · exact .some (.message _ (ih.fields _ _ _ ‹_›))
      · exact .some (.message _ (ih.fields _ _ _ ‹_›))
      · exact .none
  · split
    · exact .none
    · split
      · exact .none
      · split
        · split
          · exact .none
          · have args := ih.arguments _ _ _ ‹_›
            intro e rest found
            obtain ⟨expansion, expands, ⟨⟩⟩ := Option.map_eq_some_iff.1 found
            exact callOf?_written expands args
        · exact .some (.ident _)

end

theorem readsWritten (fuel : Nat) : ReadsWritten fuel := by
  induction fuel with
  | zero => constructor <;> intros <;> exact .none
  | succ fuel ih =>
    exact {
      expr := expr_step ih
      or := or_step ih
      orRest := orRest_step ih
      and := and_step ih
      andRest := andRest_step ih
      relation := relation_step ih
      relationRest := relationRest_step ih
      sum := sum_step ih
      sumRest := sumRest_step ih
      product := product_step ih
      productRest := productRest_step ih
      signed := signed_step ih
      member := member_step ih
      memberRest := memberRest_step ih
      arguments := arguments_step ih
      items := items_step ih
      entries := entries_step ih
      fields := fields_step ih
      primary := primary_step ih
      named := named_step ih }

end Reader

theorem written_of_ofText? {text : String} {e : Expr} (read : Expr.ofText? text = some e) :
    Written e := by
  unfold Expr.ofText? at read
  split at read
  · cases read
  · split at read
    · cases read
      exact (Reader.readsWritten _).expr _ _ _ ‹_›
    · cases read

end CallGuard.Cel
