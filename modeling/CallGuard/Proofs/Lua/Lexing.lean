import CallGuard.Lua.Token
import CallGuard.Proofs.Rules.Spelling
import CallGuard.Proofs.Text.Encoding
import Mathlib

set_option autoImplicit false

namespace CallGuard.Lua.Token

open Rules

def Scans (line : Nat) (cs : List Char) (ts : List Token) : Prop :=
  ∃ words : List Lexeme, words.map Lexeme.token = ts ∧
    ∀ fuel, cs.length < fuel → scanFrom fuel line cs = some words

variable {line : Nat} {cs rest : List Char} {t : Token} {ts : List Token}

theorem scans_nil (line : Nat) : Scans line [] [] := by
  refine ⟨[], rfl, fun fuel enough => ?_⟩
  cases fuel with
  | zero => cases enough
  | succ fuel => rfl

theorem Scans.blank (more : Scans line cs ts) : Scans line (' ' :: cs) ts := by
  obtain ⟨words, tokens, scanned⟩ := more
  refine ⟨words, tokens, fun fuel enough => ?_⟩
  cases fuel with
  | zero => cases enough
  | succ fuel =>
    have later := scanned fuel (by simpa using enough)
    exact later

-- Where a word starts: at neither a blank nor a comment.
def startsWord : List Char → Bool
  | '-' :: '-' :: _ => false
  | c :: _ => !isLineEnd c && !isSpace c
  | [] => false

theorem Scans.word {line' : Nat} (more : Scans line' rest ts) (starts : startsWord cs = true)
    (read : first? line cs = some (⟨t, line'⟩, rest)) (shorter : rest.length < cs.length) :
    Scans line cs (t :: ts) := by
  obtain ⟨words, tokens, scanned⟩ := more
  refine ⟨⟨t, line'⟩ :: words, by simp [tokens], fun fuel enough => ?_⟩
  cases fuel with
  | zero => cases enough
  | succ fuel =>
    have later := scanned fuel (by omega)
    unfold startsWord at starts
    split at starts
    · cases starts
    · next c cs noComment =>
      simp only [Bool.and_eq_true, Bool.not_eq_true'] at starts
      simp only [scanFrom, starts.1, starts.2, Bool.false_eq_true, if_false]
      split
      · next same =>
        obtain ⟨dash, more⟩ := List.cons.inj same
        exact (noComment _ dash more).elim
      · simp only [read, later, Option.map_some]
    · cases starts

theorem scan_of_scans {text : String} (scans : Scans 1 text.toList ts) :
    ∃ words, scan text = some words ∧ words.map Lexeme.token = ts := by
  obtain ⟨words, tokens, scanned⟩ := scans
  have enough : text.toList.length < text.length + 1 := by
    rw [String.length_toList]
    exact Nat.lt_succ_self _
  exact ⟨words, scanned _ enough, tokens⟩

theorem isNameStart_eq (c : Char) : isNameStart c = (c.isAlpha || c == '_') := by
  have lower : ('a' ≤ c && c ≤ 'z') = c.isLower := by
    simp [Char.isLower, Char.le_def]
  have upper : ('A' ≤ c && c ≤ 'Z') = c.isUpper := by
    simp [Char.isUpper, Char.le_def]
  rw [isNameStart, lower, upper, Char.isAlpha, Bool.or_comm c.isLower]

theorem isNameChar_eq (c : Char) : isNameChar c = (c.isAlphanum || c == '_') := by
  rw [isNameChar, isNameStart_eq, Char.isAlphanum]
  cases c.isAlpha <;> cases c.isDigit <;> simp

theorem first?_name {name : String} (word : IsIdentifier name)
    (ends : rest.takeWhile isNameChar = []) (line : Nat) :
    first? line (name.toList ++ rest) = some (⟨ofWord name, line⟩, rest) := by
  have all : ∀ c ∈ name.toList, isNameChar c = true := by
    intro c member
    rw [isNameChar_eq]
    exact word.parts c member
  have taken : (name.toList ++ rest).takeWhile isNameChar = name.toList := by
    rw [List.takeWhile_append_of_pos all, ends, List.append_nil]
  have dropped : (name.toList ++ rest).dropWhile isNameChar = rest := by
    have split := List.takeWhile_append_dropWhile (p := isNameChar) (l := name.toList ++ rest)
    rw [taken] at split
    exact List.append_cancel_left split
  obtain ⟨c, cs, chars, start⟩ := word.start
  have text : String.ofList (c :: cs) = name := by rw [← chars, String.ofList_toList]
  rw [chars, List.cons_append] at taken dropped ⊢
  simp only [first?, isNameStart_eq, start, if_true, taken, dropped, text]

theorem startsWord_part {c : Char} (part : (c.isAlphanum || c == '_') = true) (cs : List Char) :
    startsWord (c :: cs) = true := by
  have high : 48 ≤ c.toNat := by
    simp only [Char.isAlphanum, Char.isAlpha, Char.isUpper, Char.isLower, Char.isDigit,
      Bool.or_eq_true, Bool.and_eq_true, decide_eq_true_eq, beq_iff_eq, ge_iff_le,
      UInt32.le_iff_toNat_le] at part
    obtain ((upper | lower) | digit) | rfl := part
    · exact Nat.le_trans (by decide) upper.1
    · exact Nat.le_trans (by decide) lower.1
    · exact digit.1
    · decide
  have other : ∀ d : Char, d.toNat < 48 → c ≠ d := by
    rintro d low rfl
    omega
  have space : isSpace c = false := by
    simp only [isSpace, Bool.or_eq_false_iff, beq_eq_false_iff_ne, Bool.and_eq_false_iff,
      decide_eq_false_iff_not]
    exact ⟨other ' ' (by decide), .inr (by omega)⟩
  unfold startsWord
  split
  · next same => exact absurd (List.cons.inj same).1 (other '-' (by decide))
  · next same =>
    cases same
    simp [isLineEnd, other '\n' (by decide), other '\r' (by decide), space]
  · next same => cases same

theorem scans_name {name : String} (word : IsIdentifier name)
    (ends : rest.takeWhile isNameChar = []) (more : Scans line rest ts) :
    Scans line (name.toList ++ rest) (ofWord name :: ts) := by
  have read := first?_name word ends line
  obtain ⟨c, cs, chars, start⟩ := word.start
  rw [chars] at read ⊢
  refine more.word ?_ read ?_
  · exact startsWord_part (word.parts c (by simp [chars])) _
  · rw [List.length_append, List.length_cons]
    omega

theorem first?_symbol {c : Char} {s : String} (alone : symbolOf (c :: cs) = s)
    (plain : (isNameStart c || startsNumber (c :: cs) || c == '"' || c == '\'') = false)
    (noText : longBracket? '[' (c :: cs) = none)
    (noLevel : (c == '[' && cs.head? == some '=') = false) :
    first? line (c :: cs) = some (⟨.symbol s, line⟩, (c :: cs).drop s.length) := by
  simp only [Bool.or_eq_false_iff] at plain
  simp [first?, alone, plain, noText, noLevel]

theorem scans_open (more : Scans line cs ts) : Scans line ('(' :: cs) (.symbol "(" :: ts) :=
  more.word rfl (first?_symbol (s := "(") rfl rfl rfl rfl) (Nat.lt_succ_self _)

theorem scans_close (more : Scans line cs ts) : Scans line (')' :: cs) (.symbol ")" :: ts) :=
  more.word rfl (first?_symbol (s := ")") rfl rfl rfl rfl) (Nat.lt_succ_self _)

theorem scans_comma (more : Scans line cs ts) : Scans line (',' :: cs) (.symbol "," :: ts) :=
  more.word rfl (first?_symbol (s := ",") rfl rfl rfl rfl) (Nat.lt_succ_self _)

theorem scans_equal (more : Scans line cs ts) :
    Scans line ('=' :: '=' :: cs) (.symbol "==" :: ts) :=
  more.word rfl (first?_symbol (s := "==") rfl rfl rfl rfl)
    (Nat.lt_succ_of_lt (Nat.lt_succ_self _))

theorem scans_dot {c : Char} (noDigit : c.isDigit = false) (noDot : c ≠ '.')
    (more : Scans line (c :: cs) ts) : Scans line ('.' :: c :: cs) (.symbol "." :: ts) := by
  have alone : symbolOf ('.' :: c :: cs) = "." := by
    simp [symbolOf, longSymbols, List.isPrefixOf, noDot.symm]
  refine more.word rfl (first?_symbol alone ?_ rfl rfl) (Nat.lt_succ_self _)
  simp [isNameStart, startsNumber, noDigit]

theorem scans_index {c : Char} (noText : c ≠ '[') (noLevel : c ≠ '=')
    (more : Scans line (c :: cs) ts) : Scans line ('[' :: c :: cs) (.symbol "[" :: ts) := by
  have noBracket : longBracket? '[' ('[' :: c :: cs) = none := by
    simp [longBracket?, noLevel, noText]
  refine more.word rfl (first?_symbol (s := "[") rfl rfl noBracket ?_) (Nat.lt_succ_self _)
  simp [noLevel]

theorem scans_end (more : Scans line cs ts) : Scans line (']' :: cs) (.symbol "]" :: ts) :=
  more.word rfl (first?_symbol (s := "]") rfl rfl rfl rfl) (Nat.lt_succ_self _)

theorem numeralChars_digits {ds : List Char} (all : ∀ c ∈ ds, c.isDigit = true)
    (rest : List Char) {fuel : Nat} (enough : ds.length < fuel) :
    numeralChars 'e' fuel (ds ++ ']' :: rest) = ds := by
  induction ds generalizing fuel with
  | nil =>
    cases fuel with
    | zero => cases enough
    | succ fuel => rfl
  | cons c ds ih =>
    cases fuel with
    | zero => cases enough
    | succ fuel =>
      have member := mem_digits (all c (by simp))
      have digit : (c.toLower == 'e') = false ∧ isHexDigit c = true :=
        (forall_chars (by decide) :
          ∀ c ∈ digits, (c.toLower == 'e') = false ∧ isHexDigit c = true) c member
      have more := ih (fun d member => all d (List.mem_cons_of_mem c member))
        (Nat.lt_of_succ_lt_succ enough)
      simp [numeralChars, digit, more]

theorem numeral_digits {ds : List Char} (all : ∀ c ∈ ds, c.isDigit = true) (rest : List Char) :
    numeral (ds ++ ']' :: rest) = ds := by
  have read : ∀ fuel, ds.length < fuel → numeralChars 'e' fuel (ds ++ ']' :: rest) = ds :=
    fun fuel enough => numeralChars_digits all rest enough
  have enough : ds.length < (ds ++ ']' :: rest).length + 1 := by
    rw [List.length_append]
    omega
  unfold numeral
  split
  · next x more same =>
    have noMark : (x == 'x' || x == 'X') = false := by
      cases ds with
      | nil => cases same
      | cons c ds =>
        cases ds with
        | nil =>
          cases same
          rfl
        | cons d ds =>
          have second : d = x := by simpa using (List.cons.inj (List.cons.inj same).2).1
          have digit := mem_digits (all d (by simp))
          have noMark : ∀ x ∈ digits, (x == 'x' || x == 'X') = false := forall_chars (by decide)
          exact noMark x (second ▸ digit)
    rw [noMark, if_neg Bool.false_ne_true]
    exact read _ enough
  · exact read _ enough

theorem dropWhile_isSpace {ds : List Char} (all : ∀ c ∈ ds, c.isDigit = true) :
    ds.dropWhile isSpace = ds := by
  cases ds with
  | nil => rfl
  | cons c ds =>
    have digit := mem_digits (all c (by simp))
    have space := (forall_chars (by decide) : ∀ c ∈ digits, isSpace c = false) c digit
    simp [space]

theorem ofChars?_digits {ds : List Char} (all : ∀ c ∈ ds, c.isDigit = true) (some : ds ≠ []) :
    Num.ofChars? ds = .some (Numeral.decimal false ⟨ds, [], false, none⟩) := by
  have trimmed : ((ds.dropWhile isSpace).reverse.dropWhile isSpace).reverse = ds := by
    rw [dropWhile_isSpace all, dropWhile_isSpace (by simpa using all), List.reverse_reverse]
  have taken : (ds ++ []).takeWhile Char.isDigit = ds ++ [] := List.takeWhile_append_of_pos all
  have dropped : (ds ++ []).dropWhile Char.isDigit = [] := List.dropWhile_append_of_pos all
  rw [List.append_nil] at taken dropped
  have numeral : Numeral.ofChars? Char.isDigit 'e' ds = .some ⟨ds, [], false, none⟩ := by
    simp [Numeral.ofChars?, taken, dropped, some]
  have digit : ∀ c ∈ ds, c ∈ digits := fun c member => mem_digits (all c member)
  have noSign : ∀ c ∈ digits, c ≠ '-' ∧ c ≠ '+' ∧ (c == 'x' || c == 'X') = false :=
    forall_chars (by decide)
  obtain ⟨c, cs, rfl⟩ := List.exists_cons_of_ne_nil some
  obtain ⟨noMinus, noPlus, -⟩ := noSign c (digit c (by simp))
  simp only [Num.ofChars?, trimmed, List.cons.injEq, noMinus, noPlus, false_and, false_implies,
    implies_true]
  split
  · next x more zero =>
    have second := (noSign x (digit x (by simp [zero]))).2.2
    rw [second, if_neg Bool.false_ne_true, numeral, Option.map_some]
  · rw [numeral, Option.map_some]

theorem decimalOf_toDigits (n : Nat) : decimalOf (Nat.toDigits 10 n) = n := by
  have same : ∀ (ds : List Char) (v : Nat), (∀ c ∈ ds, c.isDigit = true) →
      ds.foldl (fun n c => 10 * n + digitValue c) v =
        ds.foldl (fun v c => 10 * v + (c.toNat - 48)) v := by
    intro ds
    induction ds with
    | nil => exact fun v all => rfl
    | cons c ds ih =>
      intro v all
      have digit := all c (by simp)
      simp only [List.foldl_cons, digitValue, digit, if_true]
      exact ih _ fun d member => all d (List.mem_cons_of_mem c member)
  rw [decimalOf, same _ _ (all_isDigit n), foldl_toDigits]

theorem first?_number (n : Nat) (small : n < intBound) (line : Nat) (rest : List Char) :
    first? line ((toString n).toList ++ ']' :: rest) =
      some (⟨.number (.int (.ofNat n)), line⟩, ']' :: rest) := by
  have fits : fitsInt n = true := by
    have low : smallestInt ≤ (n : Int) := Int.le_trans (by decide) (Int.natCast_nonneg n)
    simp [fitsInt, low, small]
  have value : Numeral.decimal false ⟨Nat.toDigits 10 n, [], false, none⟩ =
      .int (.ofNat n) := by
    simp [Numeral.decimal, decimalOf_toDigits, fits, Int64.ofInt_eq_ofNat]
  have read := ofChars?_digits (all_isDigit n) (toDigits_ne_nil n)
  have whole := numeral_digits (all_isDigit n) rest
  rw [toList_toString]
  rw [value] at read
  have length := congrArg List.length whole
  cases chars : Nat.toDigits 10 n with
  | nil => exact absurd chars (toDigits_ne_nil n)
  | cons c cs =>
    have digit := all_isDigit n c (by simp [chars])
    have noName : isNameStart c = false :=
      (forall_chars (by decide) : ∀ c ∈ digits, isNameStart c = false) c (mem_digits digit)
    have number : startsNumber (c :: (cs ++ ']' :: rest)) = true := by
      unfold startsNumber
      split
      · next same =>
        obtain ⟨rfl, -⟩ := List.cons.inj same
        cases digit
      · next same =>
        obtain ⟨rfl, -⟩ := List.cons.inj same
        exact digit
      · next same => cases same
    rw [chars] at read whole length
    simp only [List.cons_append] at whole length ⊢
    simp only [first?, noName, number, whole, read, Bool.false_eq_true, if_false, if_true,
      Option.map_some]
    rw [← List.cons_append, List.drop_left]

theorem scans_number (n : Nat) (small : n < intBound) (more : Scans line (']' :: rest) ts) :
    Scans line ((toString n).toList ++ ']' :: rest) (.number (.int (.ofNat n)) :: ts) := by
  have read := first?_number n small line rest
  rw [toList_toString] at read ⊢
  refine more.word ?_ read ?_
  · cases chars : Nat.toDigits 10 n with
    | nil => exact absurd chars (toDigits_ne_nil n)
    | cons c cs =>
      have digit := mem_digits (all_isDigit n c (by simp [chars]))
      exact startsWord_part ((forall_chars (by decide) :
        ∀ c ∈ digits, (c.isAlphanum || c == '_') = true) c digit) _
  · have positive := List.length_pos_iff.2 (toDigits_ne_nil n)
    rw [List.length_append]
    omega

structure IsLiteral (literal : List Char) (s : String) : Prop where
  quoted : ∃ q cs, literal = q :: cs ∧ (q = '"' ∨ q = '\'')
  read : ∀ line, ∃ line', ∀ rest,
    first? line (literal ++ rest) = some (⟨.string (.ofText s), line'⟩, rest)

theorem IsLiteral.scans {literal : List Char} {s : String} (spelled : IsLiteral literal s)
    (more : ∀ line, Scans line rest ts) (line : Nat) :
    Scans line (literal ++ rest) (.string (.ofText s) :: ts) := by
  obtain ⟨line', read⟩ := spelled.read line
  obtain ⟨q, cs, rfl, quote⟩ := spelled.quoted
  refine (more line').word ?_ (read rest) ?_
  · rcases quote with rfl | rfl <;> rfl
  · rw [List.length_append, List.length_cons]
    omega

theorem bytesOf_eq (cs : List Char) : bytesOf cs = cs.utf8Encode.data.toList := by
  rw [List.utf8Encode, List.toList_data_toByteArray, bytesOf]
  refine List.flatMap_congr fun c _ => ?_
  rw [Text.toUTF8_toList, Char.toString, String.toList_singleton, List.flatMap_singleton]

theorem bytesOf_toList (s : String) : (⟨(bytesOf s.toList).toArray⟩ : Bytes) = Bytes.ofText s := by
  rw [bytesOf_eq, String.utf8Encode_toList]
  rfl

theorem shortString_escape {e c : Char} (known : (e, c) ∈ escapes) (fuel line : Nat)
    (done : List UInt8) (rest : List Char) :
    shortString '"' (fuel + 1) line done ('\\' :: e :: rest) =
      shortString '"' fuel line ((bytesOf [c]).reverse ++ done) rest := by
  rw [bytesOf_eq]
  simp only [escapes, List.mem_cons, Prod.mk.injEq, List.not_mem_nil, or_false] at known
  obtain ⟨rfl, rfl⟩ | ⟨rfl, rfl⟩ | ⟨rfl, rfl⟩ | ⟨rfl, rfl⟩ := known <;> rfl

theorem shortString_plain {c : Char}
    (plain : c ≠ '"' ∧ c ≠ '\\' ∧ c ≠ '\n' ∧ c ≠ '\r') (fuel line : Nat) (done : List UInt8)
    (rest : List Char) :
    shortString '"' (fuel + 1) line done (c :: rest) =
      shortString '"' fuel line ((bytesOf [c]).reverse ++ done) rest := by
  obtain ⟨noQuote, noEscape, noLine, noReturn⟩ := plain
  have stays : isLineEnd c = false := by simp [isLineEnd, noLine, noReturn]
  rw [shortString]
  · simp [noQuote, stays]
  · rintro rfl
    exact noEscape rfl

theorem shortString_quoted (s rest : List Char) (line : Nat) (done : List UInt8) {fuel : Nat}
    (enough : (s.flatMap escapedChar).length < fuel) :
    shortString '"' fuel line done (s.flatMap escapedChar ++ '"' :: rest) =
      some (⟨(done.reverse ++ bytesOf s).toArray⟩, line, rest) := by
  induction s generalizing fuel done with
  | nil =>
    cases fuel with
    | zero => cases enough
    | succ fuel => simp [shortString, bytesOf]
  | cons c s ih =>
    have all : done.reverse ++ bytesOf (c :: s) =
        ((bytesOf [c]).reverse ++ done).reverse ++ bytesOf s := by
      simp [bytesOf]
    rw [List.flatMap_cons, List.length_append] at enough
    rw [List.flatMap_cons, List.append_assoc, all]
    cases fuel with
    | zero => cases enough
    | succ fuel =>
      obtain ⟨e, known, spelled⟩ | ⟨plain, spelled⟩ := escapedChar_cases c
      · rw [spelled, List.length_cons, List.length_cons] at enough
        rw [spelled]
        exact (shortString_escape known fuel line done _).trans (ih _ (by omega))
      · rw [spelled, List.length_cons] at enough
        rw [spelled]
        exact (shortString_plain plain fuel line done _).trans (ih _ (by omega))

theorem isLiteral_quoted (s : String) : IsLiteral (quoted s) s := by
  refine ⟨⟨'"', _, rfl, .inl rfl⟩, fun line => ⟨line, fun rest => ?_⟩⟩
  have enough : (s.toList.flatMap escapedChar).length < (quoted s ++ rest).length + 1 := by
    simp only [quoted, List.length_append, List.length_cons]
    omega
  have read := shortString_quoted s.toList rest line [] enough
  rw [List.reverse_nil, List.nil_append, bytesOf_toList] at read
  have text : quoted s ++ rest = '"' :: (s.toList.flatMap escapedChar ++ '"' :: rest) := by
    simp [quoted]
  rw [text] at read ⊢
  have noName : isNameStart '"' = false := by decide
  have noNumber : startsNumber ('"' :: (s.toList.flatMap escapedChar ++ '"' :: rest)) = false := rfl
  simp only [first?, noName, noNumber, read]
  rfl

def stepTokens : Json.Step → List Token
  | .key k => [.symbol "[", .string (.ofText k), .symbol "]"]
  | .position i => [.symbol "[", .number (.int (.ofNat (1 + i))), .symbol "]"]

theorem scans_path {path : List Json.Step} {cs : List Char}
    (spelled : PathSpelled IsLiteral 1 path cs)
    (small : ∀ i, .position i ∈ path → ((1 + i : Nat) : Int) < intBound)
    (more : ∀ line, Scans line rest ts) (line : Nat) :
    Scans line (cs ++ rest) (path.flatMap stepTokens ++ ts) := by
  induction spelled generalizing line with
  | nil => exact more line
  | @key k literal cs path spelled _ ih =>
    have closed := fun line =>
      scans_end (ih (fun i member => small i (List.mem_cons_of_mem _ member)) line)
    have inner := spelled.scans closed line
    obtain ⟨q, text, rfl, quote⟩ := spelled.quoted
    have opened := scans_index (by rcases quote with rfl | rfl <;> decide)
      (by rcases quote with rfl | rfl <;> decide) inner
    simpa [stepTokens] using opened
  | @position i cs path _ ih =>
    have closed :=
      scans_end (ih (fun i member => small i (List.mem_cons_of_mem _ member)) line)
    have inner := scans_number (1 + i) (small i (by simp)) closed
    rw [toList_toString] at *
    cases chars : Nat.toDigits 10 (1 + i) with
    | nil => exact absurd chars (toDigits_ne_nil _)
    | cons c ds =>
      have digit := mem_digits (all_isDigit (1 + i) c (by simp [chars]))
      rw [chars, List.cons_append] at inner
      have noMark : ∀ c ∈ digits, c ≠ '[' ∧ c ≠ '=' := forall_chars (by decide)
      have opened := scans_index (noMark c digit).1 (noMark c digit).2 inner
      simpa [stepTokens, toList_toString, chars] using opened

end CallGuard.Lua.Token
