import CallGuard.Cel.Token
import CallGuard.Proofs.Rules.Spelling

set_option autoImplicit false

namespace CallGuard.Cel.Token

open Rules

def Lexes (cs : List Char) (ts : List Token) : Prop :=
  ∀ fuel, cs.length < fuel → allFrom? fuel cs = some ts

theorem lexes_nil : Lexes [] [] := by
  intro fuel enough
  cases fuel with
  | zero => cases enough
  | succ fuel => rfl

theorem Lexes.blank {cs : List Char} {ts : List Token} (more : Lexes cs ts) :
    Lexes (' ' :: cs) ts := by
  intro fuel enough
  cases fuel with
  | zero => cases enough
  | succ fuel => exact more (fuel + 1) (by simp at enough; omega)

theorem Lexes.token {cs rest : List Char} {t : Token} {ts : List Token} (more : Lexes rest ts)
    (starts : skip cs = cs) (read : next? cs = some (t, rest)) (shorter : rest.length < cs.length) :
    Lexes cs (t :: ts) := by
  intro fuel enough
  cases fuel with
  | zero => cases enough
  | succ fuel =>
    have later := more fuel (by omega)
    cases cs with
    | nil => cases shorter
    | cons c cs => simp [allFrom?, starts, read, later]

theorem all?_of_lexes {text : String} {ts : List Token} (lexes : Lexes text.toList ts)
    (noComment : ∀ rest, text.toList ≠ '/' :: '/' :: rest) : all? text = some ts := by
  unfold all?
  split
  · next rest comment => exact absurd comment (noComment rest)
  · exact lexes _ (Nat.lt_succ_self _)

theorem skip_cons {c : Char} (cs : List Char) (text : isSpace c = false) (noSlash : c ≠ '/') :
    skip (c :: cs) = c :: cs := by
  unfold skip
  split
  · next same => cases same
  · next same =>
    cases same
    exact absurd rfl noSlash
  · next same =>
    cases same
    rw [text]
    rfl

-- What does not continue a word, nor makes a literal of it.
def EndsWord (rest : List Char) : Prop :=
  rest.takeWhile isWordPart = [] ∧ isQuote rest = false

theorem endsWord_nil : EndsWord [] := ⟨rfl, rfl⟩

theorem takeWhile_word {name rest : List Char} (all : ∀ c ∈ name, isWordPart c = true)
    (ends : EndsWord rest) :
    (name ++ rest).takeWhile isWordPart = name ∧ (name ++ rest).dropWhile isWordPart = rest := by
  have taken : (name ++ rest).takeWhile isWordPart = name := by
    rw [List.takeWhile_append_of_pos all, ends.1, List.append_nil]
  have split := List.takeWhile_append_dropWhile (p := isWordPart) (l := name ++ rest)
  rw [taken] at split
  exact ⟨taken, List.append_cancel_left split⟩

theorem isQuote_of_word {name rest : List Char} (all : ∀ c ∈ name, isWordPart c = true)
    (ends : EndsWord rest) : isQuote (name ++ rest) = false := by
  cases name with
  | nil => exact ends.2
  | cons c name =>
    have part := all c (by simp)
    rw [List.cons_append]
    unfold isQuote
    split
    · next same =>
      cases same
      cases part
    · next same =>
      cases same
      cases part
    · rfl

theorem next?_word {name : String} (word : IsIdentifier name) {rest : List Char}
    (ends : EndsWord rest) : next? (name.toList ++ rest) = some (.word name, rest) := by
  obtain ⟨c, cs, chars, start⟩ := word.start
  have whole : ∀ d ∈ name.toList, isWordPart d = true := word.parts
  have text : name = String.ofList (c :: cs) := by rw [← chars, String.ofList_toList]
  have first : isWordStart c = true := start
  rw [chars] at whole ⊢
  rw [text]
  obtain ⟨taken, dropped⟩ := takeWhile_word whole ends
  have all : ∀ d ∈ cs, isWordPart d = true := fun d member =>
    whole d (List.mem_cons_of_mem c member)
  have noQuote := isQuote_of_word all ends
  rw [List.cons_append] at taken dropped ⊢
  simp only [next?, taken, dropped, noQuote, first, Bool.false_eq_true, and_false, if_false,
    if_true]
  split
  · -- a word that starts like a literal of bytes
    cases cs with
    | nil =>
      split
      · next r after same =>
        have stops := ends.1
        rw [List.nil_append] at same
        rw [same, List.takeWhile_cons] at stops
        rw [if_neg]
        rintro ⟨raw, -⟩
        rcases raw with rfl | rfl <;> cases stops
      · rfl
    | cons d cs =>
      simp only [List.cons_append]
      rw [if_neg]
      rintro ⟨-, quote⟩
      have later : isQuote (cs ++ rest) = false :=
        isQuote_of_word (fun e member => all e (List.mem_cons_of_mem d member)) ends
      rw [later] at quote
      cases quote
  · rfl

def IsLiteral (literal : List Char) (s : String) : Prop :=
  ∀ rest, isQuote rest = false → next? (literal ++ rest) = some (.string s, rest)

theorem IsLiteral.skip {literal : List Char} {s : String} (spelled : IsLiteral literal s)
    (rest : List Char) (ends : isQuote rest = false) :
    Token.skip (literal ++ rest) = literal ++ rest := by
  have read := spelled rest ends
  cases all : literal ++ rest with
  | nil => rfl
  | cons c cs =>
    rw [all] at read
    refine skip_cons cs ?_ fun slash => ?_
    · cases blank : isSpace c with
      | false => rfl
      | true =>
        simp only [isSpace, Bool.or_eq_true, beq_iff_eq] at blank
        obtain (((rfl | rfl) | rfl) | rfl) | rfl := blank <;>
          simp [next?, isQuote, markToken?, marks, isWordStart] at read
    · subst slash
      simp [next?, isQuote, markToken?, marks, isWordStart] at read

theorem next?_open (rest : List Char) : next? ('[' :: rest) = some (.mark "[", rest) := rfl

theorem next?_close (rest : List Char) : next? (']' :: rest) = some (.mark "]", rest) := rfl

theorem next?_equal (rest : List Char) :
    next? ('=' :: '=' :: rest) = some (.mark "==", rest) := rfl

theorem next?_dot {c : Char} (rest : List Char) (noDigit : c.isDigit = false) :
    next? ('.' :: c :: rest) = some (.mark ".", c :: rest) := by
  simp only [next?, List.take_succ_cons, List.take_zero, List.all_cons, noDigit]
  rfl

theorem numberToken?_digits {cs : List Char} (all : ∀ c ∈ cs, c.isDigit = true)
    (rest : List Char) :
    numberToken? (cs ++ ']' :: rest) = some (.int (decimalNumber cs) false, ']' :: rest) := by
  have taken : (cs ++ ']' :: rest).takeWhile Char.isDigit = cs := by
    rw [List.takeWhile_append_of_pos all]
    simp
  have dropped : (cs ++ ']' :: rest).dropWhile Char.isDigit = ']' :: rest := by
    rw [List.dropWhile_append_of_pos all]
    simp
  unfold numberToken?
  rw [taken, dropped]
  dsimp only
  split
  · next same =>
    cases (List.cons.inj same).1
  · next same =>
    cases (List.cons.inj same).1
  · rfl

theorem ne_of_isDigit {c d : Char} (digit : c.isDigit = true) (none : d.isDigit = false) :
    c ≠ d := by
  rintro rfl
  rw [digit] at none
  cases none

theorem isWordStart_of_isDigit {c : Char} (digit : c.isDigit = true) : isWordStart c = false :=
  (forall_chars (by decide) : ∀ c ∈ digits, isWordStart c = false) c (mem_digits digit)

theorem next?_of_isDigit {c : Char} {cs : List Char} (digit : c.isDigit = true) :
    next? (c :: cs) = numberToken? (c :: cs) := by
  have other : ∀ d : Char, d.isDigit = false → c ≠ d := fun d => ne_of_isDigit digit
  have quote : isQuote (c :: cs) = false := by
    unfold isQuote
    split
    · next same => exact absurd (List.cons.inj same).1 (other _ rfl)
    · next same => exact absurd (List.cons.inj same).1 (other _ rfl)
    · rfl
  simp [next?, other 'r' rfl, other 'R' rfl, other 'b' rfl, other 'B' rfl, quote, digit,
    isWordStart_of_isDigit digit]

theorem next?_number (n : Nat) (rest : List Char) :
    next? ((toString n).toList ++ ']' :: rest) = some (.int n false, ']' :: rest) := by
  have all := all_isDigit n
  have value : decimalNumber (Nat.toDigits 10 n) = n := foldl_toDigits n
  have read := numberToken?_digits all rest
  rw [toList_toString]
  cases chars : Nat.toDigits 10 n with
  | nil => exact absurd chars (toDigits_ne_nil n)
  | cons c cs =>
    have digit := all c (by simp [chars])
    rw [chars] at read value
    rw [value] at read
    rw [← read]
    exact next?_of_isDigit digit

def stepTokens : Json.Step → List Token
  | .key name => [.mark "[", .string name, .mark "]"]
  | .position i => [.mark "[", .int i false, .mark "]"]

theorem lexes_word {name : String} (word : IsIdentifier name) {rest : List Char}
    {ts : List Token} (ends : EndsWord rest) (more : Lexes rest ts) :
    Lexes (name.toList ++ rest) (.word name :: ts) := by
  obtain ⟨c, cs, chars, start⟩ := word.start
  have read := next?_word word ends
  have part := word.parts c (by simp [chars])
  rw [chars] at read ⊢
  refine more.token (skip_cons _ ?_ ?_) read ?_
  · cases blank : isSpace c with
    | false => rfl
    | true =>
      simp only [isSpace, Bool.or_eq_true, beq_iff_eq] at blank
      obtain (((rfl | rfl) | rfl) | rfl) | rfl := blank <;> cases part
  · rintro rfl
    cases part
  · rw [List.length_append, List.length_cons]
    omega

theorem lexes_open {cs : List Char} {ts : List Token} (more : Lexes cs ts) :
    Lexes ('[' :: cs) (.mark "[" :: ts) :=
  more.token (skip_cons cs rfl (by decide)) (next?_open cs) (Nat.lt_succ_self _)

theorem lexes_close {cs : List Char} {ts : List Token} (more : Lexes cs ts) :
    Lexes (']' :: cs) (.mark "]" :: ts) :=
  more.token (skip_cons cs rfl (by decide)) (next?_close cs) (Nat.lt_succ_self _)

theorem IsLiteral.lexes {literal rest : List Char} {s : String} {ts : List Token}
    (spelled : IsLiteral literal s) (ends : isQuote rest = false) (more : Lexes rest ts) :
    Lexes (literal ++ rest) (.string s :: ts) := by
  refine more.token (spelled.skip rest ends) (spelled rest ends) ?_
  cases literal with
  | nil =>
    have read := spelled [] rfl
    cases read
  | cons c cs =>
    rw [List.length_append, List.length_cons]
    omega

theorem lexes_number {rest : List Char} {ts : List Token} (n : Nat)
    (more : Lexes (']' :: rest) ts) :
    Lexes ((toString n).toList ++ ']' :: rest) (.int n false :: ts) := by
  refine more.token ?_ (next?_number n rest) ?_
  · rw [toList_toString]
    cases chars : Nat.toDigits 10 n with
    | nil => exact absurd chars (toDigits_ne_nil n)
    | cons c cs =>
      have digit := all_isDigit n c (by simp [chars])
      have space : ∀ c ∈ digits, isSpace c = false := forall_chars (by decide)
      exact skip_cons _ (space c (mem_digits digit)) (ne_of_isDigit digit rfl)
  · have positive := List.length_pos_iff.2 (toDigits_ne_nil n)
    rw [toList_toString, List.length_append]
    omega

theorem lexes_path {path : List Json.Step} {cs rest : List Char} {ts : List Token}
    (spelled : PathSpelled IsLiteral 0 path cs) (more : Lexes rest ts) :
    Lexes (cs ++ rest) (path.flatMap stepTokens ++ ts) := by
  induction spelled with
  | nil => exact more
  | @key name literal cs path spelled _ ih =>
    have closed := lexes_close ih
    have inner := spelled.lexes rfl closed
    simpa [stepTokens] using lexes_open inner
  | @position i cs path _ ih =>
    have inner := lexes_number i (lexes_close ih)
    simpa [stepTokens] using lexes_open inner

theorem escapeLength?_escape {e c : Char} (known : (e, c) ∈ escapes) (rest : List Char) :
    escapeLength? (e :: rest) = some 1 := by
  simp only [escapes, List.mem_cons, Prod.mk.injEq, List.not_mem_nil, or_false] at known
  obtain ⟨rfl, -⟩ | ⟨rfl, -⟩ | ⟨rfl, -⟩ | ⟨rfl, -⟩ := known <;> rfl

theorem unquote?_escape {e c : Char} (known : (e, c) ∈ escapes) (rest : List Char) :
    unquote? ⟨false, true⟩ ('\\' :: e :: rest) =
      (unquote? ⟨false, true⟩ rest).map (c :: ·) := by
  simp only [escapes, List.mem_cons, Prod.mk.injEq, List.not_mem_nil, or_false] at known
  -- The reader looks at two more characters before it gives up on an octal number.
  obtain ⟨rfl, rfl⟩ | ⟨rfl, rfl⟩ | ⟨rfl, rfl⟩ | ⟨rfl, rfl⟩ := known <;>
    rcases rest with _ | ⟨a, _ | ⟨b, rest⟩⟩ <;> rfl

theorem quotedPart?_quoted (s rest : List Char) {fuel : Nat}
    (enough : (s.flatMap escapedChar).length < fuel) :
    quotedPart? ['"'] false fuel (s.flatMap escapedChar ++ '"' :: rest) =
      some (s.flatMap escapedChar ++ ['"'], rest) := by
  induction s generalizing fuel with
  | nil =>
    cases fuel with
    | zero => cases enough
    | succ fuel => rfl
  | cons c s ih =>
    rw [List.flatMap_cons, List.length_append] at enough
    cases fuel with
    | zero => cases enough
    | succ fuel =>
      obtain ⟨e, known, spelled⟩ | ⟨⟨noQuote, noEscape, noLine, noReturn⟩, spelled⟩ :=
        escapedChar_cases c
      · rw [spelled, List.length_cons, List.length_cons] at enough
        have later := @ih fuel (by omega)
        simp [spelled, quotedPart?, escapeLength?_escape known, later]
      · rw [spelled, List.length_cons] at enough
        have later := @ih fuel (by omega)
        simp [spelled, quotedPart?, noQuote, noLine, noReturn, later]

theorem unquote?_quoted (s rest : List Char) :
    unquote? ⟨false, true⟩ (s.flatMap escapedChar ++ rest) =
      (unquote? ⟨false, true⟩ rest).map (s ++ ·) := by
  induction s with
  | nil => simp
  | cons c s ih =>
    have more : (unquote? ⟨false, true⟩ (s.flatMap escapedChar ++ rest)).map (c :: ·) =
        (unquote? ⟨false, true⟩ rest).map (c :: s ++ ·) := by
      rw [ih, Option.map_map]
      rfl
    rw [← more, List.flatMap_cons, List.append_assoc]
    obtain ⟨e, known, spelled⟩ | ⟨⟨noQuote, noEscape, -, -⟩, spelled⟩ := escapedChar_cases c
    · rw [spelled]
      exact unquote?_escape known _
    · have stays : Open.toggle? ⟨false, true⟩ c = none := by
        simp [Open.toggle?, noQuote]
      simp [spelled, unquote?, noEscape, stays, Open.any]

theorem isLiteral_quoted (s : String) : IsLiteral (quoted s) s := by
  intro rest ends
  have part : quotedPart? ['"'] false ((quoted s ++ rest).length + 1)
      (s.toList.flatMap escapedChar ++ '"' :: rest) =
        some (s.toList.flatMap escapedChar ++ ['"'], rest) :=
    quotedPart?_quoted s.toList rest (by simp only [quoted, List.length_append,
      List.length_cons, List.length_nil]; omega)
  have short : (quoted s ++ rest).take 3 ≠ ['"', '"', '"'] := by
    rw [quoted]
    cases s.toList with
    | nil =>
      cases rest with
      | nil => decide
      | cons c rest =>
        intro same
        have quote : c = '"' := by simpa using same
        subst quote
        cases ends
    | cons c s =>
      rw [List.flatMap_cons]
      obtain ⟨e, -, spelled⟩ | ⟨⟨noQuote, -⟩, spelled⟩ := escapedChar_cases c
      · simp [spelled]
      · simp [spelled, noQuote]
  have whole : quoted? false (quoted s ++ rest) = some (quoted s, rest) := by
    have text : quoted s ++ rest = '"' :: (s.toList.flatMap escapedChar ++ '"' :: rest) := by
      simp [quoted]
    rw [text] at short part ⊢
    simp only [quoted?, true_or, if_true, if_neg short, part]
    rfl
  have value : unquote? ⟨false, false⟩ (quoted s) = some s.toList := by
    have inner := unquote?_quoted s.toList ['"']
    have closed : unquote? ⟨false, true⟩ ['"'] = some [] := rfl
    rw [closed, Option.map_some, List.append_nil] at inner
    exact inner
  have token : stringToken? false (quoted s ++ rest) = some (.string s, rest) := by
    simp [stringToken?, whole, value]
  exact token

end CallGuard.Cel.Token
