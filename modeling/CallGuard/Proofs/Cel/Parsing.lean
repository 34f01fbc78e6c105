import CallGuard.Cel.Evaluator
import CallGuard.Proofs.Cel.Lexing

set_option autoImplicit false

namespace CallGuard.Cel

open Rules

namespace Reader

variable {n : Nat} {ts rest : List Token} {e : Expr}

def Finds (read : Nat → List Token → Option (Expr × List Token)) (n : Nat) (ts : List Token)
    (e : Expr) (rest : List Token) : Prop :=
  ∀ fuel, n ≤ fuel → read fuel ts = some (e, rest)

theorem Finds.mono {read : Nat → List Token → Option (Expr × List Token)} {m : Nat}
    (finds : Finds read n ts e rest) (more : n ≤ m) : Finds read m ts e rest :=
  fun fuel enough => finds fuel (Nat.le_trans more enough)

structure EndsOperand (rest : List Token) : Prop where
  member : ∀ fuel e, memberRest? (fuel + 1) e rest = some (e, rest)
  product : ∀ fuel e, productRest? (fuel + 1) e rest = some (e, rest)
  sum : ∀ fuel e, sumRest? (fuel + 1) e rest = some (e, rest)
  noMessage : ∀ t, messageBody? (t :: rest) = none
  noCall : ∀ more, rest ≠ .mark "(" :: more

structure EndsExpr (rest : List Token) : Prop extends EndsOperand rest where
  relation : ∀ fuel e, relationRest? (fuel + 1) e rest = some (e, rest)
  and : ∀ fuel e, andRest? (fuel + 1) e rest = some (e, rest)
  or : ∀ fuel e, orRest? (fuel + 1) e rest = some (e, rest)
  noConditional : ∀ more, rest ≠ .mark "?" :: more

theorem endsExpr_nil : EndsExpr [] where
  member _ _ := rfl
  product _ _ := rfl
  sum _ _ := rfl
  noMessage t := by cases h : identifier? t <;> simp [messageBody?, h]
  noCall _ := nofun
  relation _ _ := rfl
  and _ _ := rfl
  or _ _ := rfl
  noConditional _ := nofun

theorem endsExpr_close (rest : List Token) : EndsExpr (.mark "]" :: rest) where
  member _ _ := rfl
  product _ _ := rfl
  sum _ _ := rfl
  noMessage t := by cases h : identifier? t <;> simp [messageBody?, h]
  noCall _ := by simp
  relation _ _ := rfl
  and _ _ := rfl
  or _ _ := rfl
  noConditional _ := by simp

theorem endsOperand_equal (rest : List Token) : EndsOperand (.mark "==" :: rest) where
  member _ _ := rfl
  product _ _ := rfl
  sum _ _ := rfl
  noMessage t := by cases h : identifier? t <;> simp [messageBody?, h]
  noCall _ := by simp

theorem endsOperand_in (rest : List Token) : EndsOperand (.word "in" :: rest) where
  member _ _ := rfl
  product _ _ := rfl
  sum _ _ := rfl
  noMessage t := by cases h : identifier? t <;> simp [messageBody?, h]
  noCall _ := by simp

-- What an operand without a sign starts with.
def startsPlain : List Token → Bool
  | .mark _ :: _ => false
  | _ => true

theorem sum?_of_member (plain : startsPlain ts = true) (ends : EndsOperand rest)
    (read : Finds member? n ts e rest) : Finds sum? (n + 4) ts e rest := by
  intro fuel enough
  obtain ⟨k, rfl⟩ := Nat.exists_eq_add_of_le enough
  have signed : signed? (n + k + 2) ts = some (e, rest) := by
    rw [← read (n + k + 1) (by omega)]
    unfold signed?
    split
    · rfl
    · split
      · cases plain
      · cases plain
      · rfl
  have product : product? (n + k + 3) ts = some (e, rest) := by
    simp only [product?, signed, ends.product]
  rw [show n + 4 + k = n + k + 3 + 1 by omega]
  simp only [sum?, product, ends.sum]

theorem relation?_of_sum (ends : EndsExpr rest) (read : Finds sum? n ts e rest) :
    Finds relation? (n + 2) ts e rest := by
  intro fuel enough
  obtain ⟨k, rfl⟩ := Nat.exists_eq_add_of_le enough
  rw [show n + 2 + k = n + k + 1 + 1 by omega]
  simp only [relation?, read (n + k + 1) (by omega), ends.relation]

theorem relation?_of_operands {m : Nat} {t : Token} {ts' : List Token} {op : BinaryOp}
    {left right : Expr} (operator : relationToken? t = some op) (ends : EndsExpr rest)
    (first : Finds sum? n ts left (t :: ts')) (second : Finds sum? m ts' right rest) :
    Finds relation? (n + m + 3) ts (.binary op left right) rest := by
  intro fuel enough
  obtain ⟨k, rfl⟩ := Nat.exists_eq_add_of_le enough
  rw [show n + m + 3 + k = n + m + k + 1 + 1 + 1 by omega]
  simp only [relation?, first (n + m + k + 1 + 1) (by omega), relationRest?, operator,
    second (n + m + k + 1) (by omega), ends.relation]

theorem expr?_of_relation (ends : EndsExpr rest) (read : Finds relation? n ts e rest) :
    Finds expr? (n + 4) ts e rest := by
  intro fuel enough
  obtain ⟨k, rfl⟩ := Nat.exists_eq_add_of_le enough
  have and : and? (n + k + 1 + 1) ts = some (e, rest) := by
    simp only [and?, read (n + k + 1) (by omega), ends.and]
  have or : or? (n + k + 1 + 1 + 1) ts = some (e, rest) := by
    simp only [or?, and, ends.or]
  rw [show n + 4 + k = n + k + 1 + 1 + 1 + 1 by omega]
  unfold expr?
  rw [or]
  split
  · next same =>
    simp only [Option.some.injEq, Prod.mk.injEq] at same
    exact absurd same.2 (ends.noConditional _)
  · rfl

theorem member?_of_rest {m : Nat} {base : Expr} {ts' : List Token}
    (first : Finds primary? n ts base ts')
    (more : Finds (fun fuel => memberRest? fuel base) m ts' e rest) :
    Finds member? (n + m + 1) ts e rest := by
  intro fuel enough
  obtain ⟨k, rfl⟩ := Nat.exists_eq_add_of_le enough
  rw [show n + m + 1 + k = n + m + k + 1 by omega]
  simp only [member?, first (n + m + k) (by omega)]
  exact more _ (by omega)

theorem memberRest?_end (ends : EndsOperand rest) (e : Expr) :
    Finds (fun fuel => memberRest? fuel e) 1 rest e rest := by
  intro fuel enough
  obtain ⟨k, rfl⟩ := Nat.exists_eq_add_of_le enough
  rw [Nat.add_comm]
  exact ends.member k e

theorem primary?_string (s : String) (rest : List Token) :
    Finds primary? 1 (.string s :: rest) (.literal (.string s)) rest := by
  intro fuel enough
  obtain ⟨k, rfl⟩ := Nat.exists_eq_add_of_le enough
  rw [Nat.add_comm]
  rfl

theorem primary?_number {i : Nat} (small : i < intBound) (rest : List Token) :
    Finds primary? 1 (.int i false :: rest) (.literal (.int i)) rest := by
  intro fuel enough
  obtain ⟨k, rfl⟩ := Nat.exists_eq_add_of_le enough
  rw [Nat.add_comm]
  simp [primary?, intLiteral?, Nat.not_le.2 small]

theorem primary?_word {name : String} (free : isReserved name = false)
    (noMessage : messageBody? (.word name :: rest) = none)
    (noCall : ∀ more, rest ≠ .mark "(" :: more) :
    Finds primary? 2 (.word name :: rest) (.ident name) rest := by
  intro fuel enough
  obtain ⟨k, rfl⟩ := Nat.exists_eq_add_of_le enough
  have other : name ≠ "true" ∧ name ≠ "false" ∧ name ≠ "null" := by
    simp only [isReserved, List.contains_eq_mem, List.mem_cons, List.not_mem_nil, or_false,
      decide_eq_false_iff_not, not_or] at free
    exact free.2
  rw [show 2 + k = k + 1 + 1 by omega]
  simp [primary?, named?, noMessage, identifier?, free, other]

theorem member?_of_primary (ends : EndsOperand rest) (read : Finds primary? n ts e rest) :
    Finds member? (n + 2) ts e rest :=
  member?_of_rest read (memberRest?_end ends e)

theorem expr?_of_primary (plain : startsPlain ts = true) (ends : EndsExpr rest)
    (read : Finds primary? n ts e rest) : Finds expr? (n + 12) ts e rest := by
  have operand := sum?_of_member plain ends.toEndsOperand
    (member?_of_primary ends.toEndsOperand read)
  exact expr?_of_relation ends (relation?_of_sum ends operand)

end Reader

def Expr.follow (e : Expr) : List Json.Step → Expr
  | [] => e
  | .key name :: rest => (Expr.binary .index e (.literal (.string name))).follow rest
  | .position i :: rest => (Expr.binary .index e (.literal (.int i))).follow rest

-- Positions that can be written: no literal is beyond the integers.
def IsWritable (path : List Json.Step) : Prop :=
  ∀ i, .position i ∈ path → i < Reader.intBound

namespace Reader

variable {n : Nat} {ts rest : List Token} {e : Expr}

theorem memberRest?_index {base index : Expr} {m : Nat} {ts ts' : List Token}
    (inner : Finds expr? m ts index (.mark "]" :: ts'))
    (more : Finds (fun fuel => memberRest? fuel (.binary .index base index)) n ts' e rest)
    (deep : m ≤ n) :
    Finds (fun fuel => memberRest? fuel base) (n + 1) (.mark "[" :: ts) e rest := by
  intro fuel enough
  obtain ⟨k, rfl⟩ := Nat.exists_eq_add_of_le enough
  rw [show n + 1 + k = n + k + 1 by omega]
  simp only [memberRest?, inner (n + k) (by omega)]
  exact more _ (by omega)

theorem memberRest?_path {path : List Json.Step} (writable : IsWritable path)
    (ends : EndsOperand rest) (base : Expr) :
    Finds (fun fuel => memberRest? fuel base) (path.length + 13)
      (path.flatMap Token.stepTokens ++ rest) (base.follow path) rest := by
  induction path generalizing base with
  | nil => exact (memberRest?_end ends base).mono (by simp)
  | cons step path ih =>
    have more := fun base => ih (fun i member => writable i (List.mem_cons_of_mem step member)) base
    rw [List.flatMap_cons, List.append_assoc]
    cases step with
    | key name =>
      have inner := expr?_of_primary rfl (endsExpr_close (path.flatMap Token.stepTokens ++ rest))
        (primary?_string name _)
      exact memberRest?_index inner (more _) (show 1 + 12 ≤ path.length + 13 by omega)
    | position i =>
      have small : i < intBound := writable i (by simp)
      have inner := expr?_of_primary rfl (endsExpr_close (path.flatMap Token.stepTokens ++ rest))
        (primary?_number small _)
      exact memberRest?_index inner (more _) (show 1 + 12 ≤ path.length + 13 by omega)

theorem memberRest?_field {base : Expr} {name : String} (free : isReserved name = false)
    (ends : EndsOperand rest) :
    Finds (fun fuel => memberRest? fuel base) 2 (.mark "." :: .word name :: rest)
      (.select base name) rest := by
  intro fuel enough
  obtain ⟨k, rfl⟩ := Nat.exists_eq_add_of_le enough
  have read : identifier? (.word name) = some name := by simp [identifier?, free]
  rw [show 2 + k = k + 1 + 1 by omega]
  show memberRest? (k + 1 + 1) base _ = _
  unfold memberRest?
  simp only [read, fieldName?]
  split
  · next same => cases ends.noCall _ rfl
  · exact ends.member k _

end Reader

namespace Expr

theorem ofText?_of_finds {text : String} {ts : List Token} {e : Expr} {n : Nat}
    (lexes : Token.Lexes text.toList ts) (noComment : ∀ rest, text.toList ≠ '/' :: '/' :: rest)
    (read : Reader.Finds Reader.expr? n ts e []) (room : n ≤ 16 * (ts.length + 2)) :
    ofText? text = some e := by
  simp only [ofText?, Token.all?_of_lexes lexes noComment, read _ room]

theorem firstFree?_follow (bound : String → Bool) (path : List Json.Step) (e : Expr) :
    (e.follow path).firstFree? bound = e.firstFree? bound := by
  induction path generalizing e with
  | nil => rfl
  | cons step path ih => cases step <;> simp [follow, ih, firstFree?]

end Expr

theorem isDeclared_name (v : Variable) : Variable.isDeclared v.name = true := by
  cases v <;> decide

theorem isReserved_name (v : Variable) : Reader.isReserved v.name = false := by
  cases v <;> decide

theorem compile_of_ofText? {text : String} {e : Expr} (read : Expr.ofText? text = some e)
    (declared : e.firstFree? Variable.isDeclared = none) : compile text = .ok e := by
  simp only [compile, read, declared]

theorem length_flatMap_stepTokens (path : List Json.Step) :
    (path.flatMap Token.stepTokens).length = 3 * path.length := by
  induction path with
  | nil => rfl
  | cons step path ih =>
    rw [List.flatMap_cons, List.length_append, ih, List.length_cons]
    cases step <;> simp [Token.stepTokens] <;> omega

section

variable {v : Variable} {path : List Json.Step} {cs : List Char}

theorem endsWord_path {isLiteral : List Char → String → Prop} {first : Nat} {rest : List Char}
    (spelled : PathSpelled isLiteral first path cs) (ends : Token.EndsWord rest) :
    Token.EndsWord (cs ++ rest) := by
  cases spelled with
  | nil => exact ends
  | key => exact ⟨rfl, rfl⟩
  | position => exact ⟨rfl, rfl⟩

theorem noComment_variable (v : Variable) (rest : List Char) :
    ∀ more, v.name.toList ++ rest ≠ '/' :: '/' :: more := by
  cases v <;> exact fun more => nofun

open Reader in
theorem member?_path (writable : IsWritable path) {rest : List Token} (ends : EndsOperand rest) :
    Finds member? (path.length + 16) (.word v.name :: path.flatMap Token.stepTokens ++ rest)
      ((Expr.ident v.name).follow path) rest := by
  have name : Finds primary? 2 (.word v.name :: (path.flatMap Token.stepTokens ++ rest))
      (.ident v.name) (path.flatMap Token.stepTokens ++ rest) := by
    cases path with
    | nil => exact primary?_word (isReserved_name v) (ends.noMessage _) ends.noCall
    | cons step path =>
      have opens : ∃ ts, (step :: path).flatMap Token.stepTokens ++ rest = .mark "[" :: ts := by
        cases step <;> exact ⟨_, rfl⟩
      obtain ⟨ts, opens⟩ := opens
      rw [opens]
      refine primary?_word (isReserved_name v) ?_ (by simp)
      cases h : identifier? (.word v.name) <;> simp [messageBody?, h]
  exact (member?_of_rest name (memberRest?_path writable ends _)).mono (by omega)

theorem compile_path {indices : String}
    (spelled : PathSpelled Token.IsLiteral 0 path indices.toList)
    (writable : IsWritable path) :
    compile (v.name ++ indices) = .ok ((Expr.ident v.name).follow path) := by
  have ends : Token.EndsWord indices.toList := by
    have ends := endsWord_path spelled Token.endsWord_nil
    rwa [List.append_nil] at ends
  have lexes : Token.Lexes (v.name ++ indices).toList
      (.word v.name :: path.flatMap Token.stepTokens) := by
    rw [String.toList_append]
    refine Token.lexes_word (isIdentifier_of_variable v) ends ?_
    simpa using Token.lexes_path spelled Token.lexes_nil
  have operand := member?_path (v := v) writable Reader.endsExpr_nil.toEndsOperand
  rw [List.append_nil] at operand
  have read := Reader.expr?_of_relation Reader.endsExpr_nil (Reader.relation?_of_sum
    Reader.endsExpr_nil (Reader.sum?_of_member rfl Reader.endsExpr_nil.toEndsOperand operand))
  refine compile_of_ofText? (Expr.ofText?_of_finds lexes ?_ read ?_) ?_
  · rw [String.toList_append]
    exact noComment_variable v _
  · rw [List.length_cons, length_flatMap_stepTokens]
    omega
  · rw [Expr.firstFree?_follow]
    simp [Expr.firstFree?, isDeclared_name]

theorem IsLiteral.noComment {literal : List Char} {s : String} (spelled : Token.IsLiteral literal s)
    {rest : List Char} (ends : Token.isQuote rest = false) :
    ∀ more, literal ++ rest ≠ '/' :: '/' :: more := by
  intro more same
  have read := spelled rest ends
  rw [same] at read
  cases read

theorem compile_member {literal field s : String} (spelled : Token.IsLiteral literal.toList s)
    (word : IsIdentifier field) (free : Reader.isReserved field = false) :
    compile (literal ++ " in " ++ v.name ++ "." ++ field) =
      .ok (.binary .member (.literal (.string s)) (.select (.ident v.name) field)) := by
  have text : (literal ++ " in " ++ v.name ++ "." ++ field).toList =
      literal.toList ++ ' ' :: ("in".toList ++ ' ' :: (v.name.toList ++ '.' :: field.toList)) := by
    simp
  have dot : Token.Lexes ('.' :: field.toList) [.mark ".", .word field] := by
    have name : Token.Lexes field.toList [.word field] := by
      simpa using Token.lexes_word word Token.endsWord_nil Token.lexes_nil
    obtain ⟨c, cs, chars, start⟩ := word.start
    rw [chars] at name ⊢
    refine name.token (Token.skip_cons _ rfl (by decide)) (Token.next?_dot cs ?_) (by simp)
    cases digit : c.isDigit with
    | false => rfl
    | true =>
      have other : Token.isWordStart c = true := start
      rw [Token.isWordStart_of_isDigit digit] at other
      cases other
  have operand : Token.Lexes (v.name.toList ++ '.' :: field.toList)
      [.word v.name, .mark ".", .word field] :=
    Token.lexes_word (isIdentifier_of_variable v) ⟨rfl, rfl⟩ dot
  have operator : Token.Lexes ("in".toList ++ ' ' :: (v.name.toList ++ '.' :: field.toList))
      [.word "in", .word v.name, .mark ".", .word field] :=
    Token.lexes_word ⟨⟨'i', ['n'], rfl, by decide⟩, forall_chars (by decide)⟩ ⟨rfl, rfl⟩ operand.blank
  have lexes : Token.Lexes (literal ++ " in " ++ v.name ++ "." ++ field).toList
      [.string s, .word "in", .word v.name, .mark ".", .word field] := by
    rw [text]
    exact spelled.lexes rfl operator.blank
  have list : Reader.Finds Reader.member? 5 [.word v.name, .mark ".", .word field]
      (.select (.ident v.name) field) [] := by
    have name : Reader.Finds Reader.primary? 2 (.word v.name :: [.mark ".", .word field]) _ _ :=
      Reader.primary?_word (isReserved_name v)
        (by simp [Reader.messageBody?, Reader.identifier?, isReserved_name, free]) (by simp)
    exact Reader.member?_of_rest name
      (Reader.memberRest?_field free Reader.endsExpr_nil.toEndsOperand)
  have item : Reader.Finds Reader.member? 3
      [.string s, .word "in", .word v.name, .mark ".", .word field]
      (.literal (.string s)) [.word "in", .word v.name, .mark ".", .word field] :=
    Reader.member?_of_primary (Reader.endsOperand_in _) (Reader.primary?_string s _)
  have read := Reader.expr?_of_relation Reader.endsExpr_nil
    (Reader.relation?_of_operands
      (show Reader.relationToken? (.word "in") = some .member from rfl) Reader.endsExpr_nil
      (Reader.sum?_of_member rfl (Reader.endsOperand_in _) item)
      (Reader.sum?_of_member rfl Reader.endsExpr_nil.toEndsOperand list))
  refine compile_of_ofText? (Expr.ofText?_of_finds lexes ?_ read (by simp)) ?_
  · rw [text]
    exact IsLiteral.noComment spelled rfl
  · simp [Expr.firstFree?, isDeclared_name]

theorem compile_equal {key literal k s : String} (first : Token.IsLiteral key.toList k)
    (second : Token.IsLiteral literal.toList s) :
    compile (v.name ++ "[" ++ key ++ "] == " ++ literal) =
      .ok (.binary .eq (.binary .index (.ident v.name) (.literal (.string k)))
        (.literal (.string s))) := by
  have path : PathSpelled Token.IsLiteral 0 [.key k] ('[' :: key.toList ++ ']' :: []) :=
    .key first .nil
  have text : (v.name ++ "[" ++ key ++ "] == " ++ literal).toList =
      v.name.toList ++ (('[' :: key.toList ++ ']' :: []) ++ ' ' :: '=' :: '=' :: ' ' ::
        literal.toList) := by
    simp
  have string : Token.Lexes literal.toList [.string s] := by
    simpa using second.lexes rfl Token.lexes_nil
  have operator : Token.Lexes ('=' :: '=' :: ' ' :: literal.toList) [.mark "==", .string s] :=
    string.blank.token (Token.skip_cons _ rfl (by decide)) (Token.next?_equal _) (by simp)
  have lexes : Token.Lexes (v.name ++ "[" ++ key ++ "] == " ++ literal).toList
      (.word v.name ::
        ([Json.Step.key k].flatMap Token.stepTokens ++ [.mark "==", .string s])) := by
    rw [text]
    exact Token.lexes_word (isIdentifier_of_variable v) ⟨rfl, rfl⟩
      (Token.lexes_path path operator.blank)
  have writable : IsWritable [.key k] := by simp [IsWritable]
  have entry := member?_path (v := v) writable (Reader.endsOperand_equal [.string s])
  have value : Reader.Finds Reader.member? 3 [.string s] (.literal (.string s)) [] :=
    Reader.member?_of_primary Reader.endsExpr_nil.toEndsOperand (Reader.primary?_string s [])
  have read := Reader.expr?_of_relation Reader.endsExpr_nil
    (Reader.relation?_of_operands
      (show Reader.relationToken? (.mark "==") = some .eq from rfl) Reader.endsExpr_nil
      (Reader.sum?_of_member rfl (Reader.endsOperand_equal _) entry)
      (Reader.sum?_of_member rfl Reader.endsExpr_nil.toEndsOperand value))
  refine compile_of_ofText? (Expr.ofText?_of_finds lexes ?_ read ?_) ?_
  · rw [text]
    exact noComment_variable v _
  · simp [Token.stepTokens]
  · simp [Expr.firstFree?, isDeclared_name]

end

end CallGuard.Cel
