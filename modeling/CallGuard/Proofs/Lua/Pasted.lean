import CallGuard.Proofs.Lua.Lexing

set_option autoImplicit false

namespace CallGuard.Lua.Token

-- The second reader leaves a bracket more than the first.
def Leaves {α γ : Type} (made : α → List Char → γ) (n : Nat) (r r' : Option γ) : Prop :=
  (r = none ∧ r' = none) ∨
    ∃ a rest, rest.length < n ∧ r = some (made a rest) ∧ r' = some (made a (rest ++ [')']))

-- A text or the bytes of an escape, and the line on which they end.
def withRest {α : Type} (read : α × Nat) (rest : List Char) : α × Nat × List Char :=
  (read.1, read.2, rest)

section

variable {α β γ δ : Type} {made : α → List Char → γ} {made' : β → List Char → δ} {n m : Nat}
  {r r' : Option γ}

theorem Leaves.fails : Leaves made n none none := .inl ⟨rfl, rfl⟩

theorem Leaves.leaves (a : α) {rest : List Char} (shorter : rest.length < n) :
    Leaves made n (some (made a rest)) (some (made a (rest ++ [')']))) :=
  .inr ⟨a, rest, shorter, rfl, rfl⟩

theorem Leaves.mono (leaves : Leaves made n r r') (more : n ≤ m) : Leaves made m r r' := by
  obtain failed | ⟨a, rest, shorter, both⟩ := leaves
  · exact .inl failed
  · exact .inr ⟨a, rest, Nat.lt_of_lt_of_le shorter more, both⟩

theorem Leaves.map (leaves : Leaves made n r r') (f : γ → δ) (g : α → β)
    (same : ∀ a rest, f (made a rest) = made' (g a) rest) :
    Leaves made' n (r.map f) (r'.map f) := by
  obtain ⟨rfl, rfl⟩ | ⟨a, rest, shorter, rfl, rfl⟩ := leaves
  · exact .fails
  · rw [Option.map_some, Option.map_some, same, same]
    exact .leaves (g a) shorter

theorem Leaves.bind {f f' : γ → Option δ} (leaves : Leaves made n r r')
    (next : ∀ a rest, rest.length < n →
      Leaves made' m (f (made a rest)) (f' (made a (rest ++ [')'])))) :
    Leaves made' m (r.bind f) (r'.bind f') := by
  obtain ⟨rfl, rfl⟩ | ⟨a, rest, shorter, rfl, rfl⟩ := leaves
  · exact .fails
  · exact next a rest shorter

end

section

variable {p : Char → Bool}

theorem takeWhile_pasted (stops : p ')' = false) (cs : List Char) :
    (cs ++ [')']).takeWhile p = cs.takeWhile p := by
  induction cs with
  | nil => simp [stops]
  | cons c cs ih =>
    rw [List.cons_append, List.takeWhile_cons, List.takeWhile_cons, ih]

theorem dropWhile_pasted (stops : p ')' = false) (cs : List Char) :
    (cs ++ [')']).dropWhile p = cs.dropWhile p ++ [')'] := by
  induction cs with
  | nil => simp [stops]
  | cons c cs ih =>
    rw [List.cons_append, List.dropWhile_cons, List.dropWhile_cons, ih]
    split <;> rfl

end

theorem afterLineEnd_cons (c d : Char) (rest : List Char) :
    afterLineEnd (c :: d :: rest) =
      if c = '\r' ∧ d = '\n' ∨ c = '\n' ∧ d = '\r' then rest else d :: rest := by
  split
  · next pair => obtain ⟨rfl, rfl⟩ | ⟨rfl, rfl⟩ := pair <;> rfl
  · next noPair =>
    rw [afterLineEnd]
    · intro _ first second
      exact noPair (.inl ⟨first, (List.cons.inj second).1⟩)
    · intro _ first second
      exact noPair (.inr ⟨first, (List.cons.inj second).1⟩)

theorem afterLineEnd_pasted (c : Char) (rest : List Char) :
    afterLineEnd (c :: (rest ++ [')'])) = afterLineEnd (c :: rest) ++ [')'] := by
  cases rest with
  | nil =>
    have one : afterLineEnd [c] = [] := by simp [afterLineEnd]
    rw [List.nil_append, afterLineEnd_cons, if_neg (by simp), one]
    rfl
  | cons d rest =>
    rw [List.cons_append, afterLineEnd_cons, afterLineEnd_cons]
    split <;> rfl

theorem length_afterLineEnd (c : Char) (rest : List Char) :
    (afterLineEnd (c :: rest)).length ≤ rest.length := by
  cases rest with
  | nil => simp [afterLineEnd]
  | cons d rest =>
    rw [afterLineEnd_cons]
    split
    · exact Nat.le_succ _
    · exact Nat.le_refl _

theorem longBracket?_pasted (bracket : Char) (other : (')' == bracket) = false) (cs : List Char) :
    Leaves Prod.mk cs.length (longBracket? bracket cs) (longBracket? bracket (cs ++ [')'])) := by
  cases cs with
  | nil =>
    simp only [List.nil_append, longBracket?, other]
    exact .fails
  | cons c rest =>
    have inside : (rest.takeWhile (· == '=')).length ≤ rest.length :=
      (List.takeWhile_prefix _).length_le
    rw [List.cons_append, longBracket?, longBracket?]
    split
    · simp only [takeWhile_pasted (p := (· == '=')) rfl, List.drop_append_of_le_length inside]
      have shorter : (rest.drop (rest.takeWhile (· == '=')).length).length ≤ rest.length :=
        (List.drop_suffix _ _).length_le
      generalize rest.drop (rest.takeWhile (· == '=')).length = after at shorter
      cases after with
      | nil =>
        simp only [List.nil_append, other]
        exact .fails
      | cons d after =>
        rw [List.cons_append]
        simp only
        split
        · exact .leaves _ (Nat.lt_succ_of_lt shorter)
        · exact .fails
    · exact .fails

theorem longText_pasted (level : Nat) {fuel fuel' : Nat} (line : Nat) (done : List UInt8)
    {cs : List Char} (enough : cs.length < fuel) (enough' : cs.length + 1 < fuel') :
    Leaves withRest cs.length (longText level fuel line done cs)
      (longText level fuel' line done (cs ++ [')'])) := by
  induction fuel generalizing fuel' line done cs with
  | zero => cases enough
  | succ fuel ih =>
    obtain ⟨fuel', rfl⟩ : ∃ k, fuel' = k + 2 := Nat.exists_eq_add_of_le' (by omega)
    cases cs with
    | nil => exact .fails
    | cons c rest =>
      rw [List.length_cons] at enough enough'
      have opens := longBracket?_pasted ']' rfl (c :: rest)
      rw [List.cons_append] at opens ⊢
      rw [longText, longText]
      obtain ⟨first, second⟩ | ⟨n, after, shorter, first, second⟩ := opens
      · simp only [first, second]
        split
        · have shorter := length_afterLineEnd c rest
          rw [afterLineEnd_pasted]
          exact (ih _ _ (by omega) (by omega)).mono (Nat.le_succ_of_le shorter)
        · exact (ih _ _ (by omega) (by omega)).mono (Nat.le_succ _)
      · simp only [first, second]
        split
        · exact .leaves (_, _) shorter
        · exact (ih _ _ (by omega) (by omega)).mono (Nat.le_succ _)

theorem longString_pasted (level line : Nat) (cs : List Char) :
    Leaves withRest cs.length (longString level line cs)
      (longString level line (cs ++ [')'])) := by
  cases cs with
  | nil => exact .fails
  | cons c rest =>
    have count : (c :: (rest ++ [')'])).length = rest.length + 2 := by simp
    rw [List.cons_append, longString, longString, count]
    split
    · have shorter := length_afterLineEnd c rest
      rw [afterLineEnd_pasted]
      exact (longText_pasted level _ _ (by rw [List.length_cons]; omega) (by omega)).mono
        (Nat.le_succ_of_le shorter)
    · exact longText_pasted level line [] (Nat.lt_succ_self _) (Nat.lt_succ_self _)

-- The bytes of an escape by number, from the first of which is not a digit.
def numbered (line : Nat) (digits : List Char) : List Char → Option (List UInt8 × Nat × List Char)
  | '}' :: rest =>
    if digits.isEmpty || 0x80000000 ≤ hexOf digits then none
    else some ((utf8Escape (hexOf digits)).reverse, line, rest)
  | _ => none

def oneEscape (line : Nat) (c : Char) (rest : List Char) :
    Option (List UInt8 × Nat × List Char) :=
  match simpleEscape? c with
  | some b => some ([b], line, rest)
  | none =>
    if isLineEnd c then some ([10], line + 1, afterLineEnd (c :: rest))
    else
      let digits := ((c :: rest).take 3).takeWhile Char.isDigit
      if digits.isEmpty || 255 < decimalOf digits then none
      else some ([.ofNat (decimalOf digits)], line, (c :: rest).drop digits.length)

def escaped (line : Nat) : List Char → Option (List UInt8 × Nat × List Char)
  | 'x' :: a :: b :: rest =>
    if isHexDigit a && isHexDigit b then
      some ([.ofNat (16 * digitValue a + digitValue b)], line, rest)
    else none
  | 'u' :: '{' :: rest =>
    numbered line (rest.takeWhile isHexDigit) (rest.dropWhile isHexDigit)
  | 'z' :: rest =>
    let blanks := rest.takeWhile isSpace
    some ([], line + shortString.lineEnds blanks.length blanks, rest.dropWhile isSpace)
  | c :: rest => oneEscape line c rest
  | [] => none

theorem shortString_escaped (quote : Char) (fuel line : Nat) (done : List UInt8)
    (cs : List Char) :
    shortString quote (fuel + 1) line done ('\\' :: cs) =
      (escaped line cs).bind fun r => shortString quote fuel r.2.1 (r.1 ++ done) r.2.2 := by
  unfold escaped
  split
  · rw [shortString]
    split <;> rfl
  · next rest =>
    rw [shortString]
    generalize rest.dropWhile isHexDigit = after
    split
    · rw [numbered]
      split <;> rfl
    · next noBrace =>
      rw [numbered]
      · rfl
      · exact noBrace
  · rw [shortString]
    rfl
  · next c rest noHex noUnicode noBlanks =>
    rw [shortString, oneEscape]
    · cases simpleEscape? c with
      | some b => rfl
      | none =>
        simp only
        split
        · rfl
        · split <;> rfl
    · exact noHex
    · exact noUnicode
    · exact noBlanks
  · rfl

theorem numbered_pasted (line : Nat) (digits cs : List Char) :
    Leaves withRest cs.length (numbered line digits cs) (numbered line digits (cs ++ [')'])) := by
  rcases cs with _ | ⟨c, rest⟩
  · exact .fails
  · by_cases brace : c = '}'
    · subst brace
      rw [List.cons_append, numbered, numbered]
      split
      · exact .fails
      · exact .leaves (_, line) (Nat.lt_succ_self _)
    · have stays (rest : List Char) : numbered line digits (c :: rest) = none := by
        rw [numbered]
        exact fun _ same => brace (List.cons.inj same).1
      rw [List.cons_append, stays, stays]
      exact .fails

theorem oneEscape_pasted (line : Nat) (c : Char) (rest : List Char) :
    Leaves withRest (rest.length + 1) (oneEscape line c rest)
      (oneEscape line c (rest ++ [')'])) := by
  unfold oneEscape
  cases simpleEscape? c with
  | some b => exact .leaves ([b], line) (Nat.lt_succ_self _)
  | none =>
    simp only
    split
    · rw [afterLineEnd_pasted]
      exact .leaves ([10], line + 1) (Nat.lt_succ_of_le (length_afterLineEnd c rest))
    · have same : ((c :: (rest ++ [')'])).take 3).takeWhile Char.isDigit =
          ((c :: rest).take 3).takeWhile Char.isDigit := by
        rcases rest with _ | ⟨d, _ | ⟨e, rest⟩⟩
        · exact takeWhile_pasted rfl [c]
        · exact takeWhile_pasted rfl [c, d]
        · rfl
      rw [same]
      split
      · exact .fails
      · next valid =>
        have inside : (((c :: rest).take 3).takeWhile Char.isDigit).length ≤ (c :: rest).length :=
          Nat.le_trans (List.takeWhile_prefix _).length_le (List.length_take_le' _ _)
        rw [← List.cons_append, List.drop_append_of_le_length inside]
        apply Leaves.leaves ([_], line)
        rw [List.length_drop]
        have some : ((c :: rest).take 3).takeWhile Char.isDigit ≠ [] := by
          intro nothing
          rw [nothing] at valid
          exact valid rfl
        have positive := List.length_pos_iff.2 some
        rw [List.length_cons]
        omega

theorem escaped_other {c : Char} (line : Nat) (rest : List Char)
    (noHex : c = 'x' → rest.length < 2) (noUnicode : c = 'u' → rest.head? ≠ some '{')
    (noBlanks : c ≠ 'z') : escaped line (c :: rest) = oneEscape line c rest := by
  rw [escaped]
  · rintro a b after same rfl
    have few := noHex same
    simp only [List.length_cons] at few
    omega
  · rintro after same rfl
    exact noUnicode same rfl
  · exact noBlanks

theorem escaped_pasted (line : Nat) (cs : List Char) :
    Leaves withRest cs.length (escaped line cs) (escaped line (cs ++ [')'])) := by
  rcases cs with _ | ⟨c, rest⟩
  · exact .fails
  · rw [List.cons_append]
    by_cases hex : c = 'x'
    · subst hex
      rcases rest with _ | ⟨a, _ | ⟨b, rest⟩⟩
      · exact .fails
      · have pasted : escaped line ['x', a, ')'] = none := by
          rw [escaped, if_neg (by simp [isHexDigit])]
        show Leaves withRest 2 none (escaped line ['x', a, ')'])
        rw [pasted]
        exact .fails
      · simp only [List.cons_append, escaped]
        split
        · exact .leaves (_, line) (by simp only [List.length_cons]; omega)
        · exact .fails
    · by_cases unicode : c = 'u' ∧ rest.head? = some '{'
      · obtain ⟨rfl, brace⟩ := unicode
        obtain ⟨rest, rfl⟩ : ∃ after, rest = '{' :: after := by
          cases rest with
          | nil => cases brace
          | cons d after =>
            cases brace
            exact ⟨after, rfl⟩
        rw [List.cons_append, escaped, escaped, takeWhile_pasted rfl, dropWhile_pasted rfl]
        apply (numbered_pasted line _ _).mono
        have shorter := List.length_dropWhile_le isHexDigit rest
        simp only [List.length_cons]
        omega
      · by_cases blanks : c = 'z'
        · subst blanks
          have shorter := List.length_dropWhile_le isSpace rest
          simp only [escaped]
          rw [takeWhile_pasted rfl, dropWhile_pasted rfl]
          exact .leaves (_, _) (Nat.lt_succ_of_le shorter)
        · have noHex (after : List Char) (same : c = 'x') : after.length < 2 := (hex same).elim
          have noUnicode (same : c = 'u') : rest.head? ≠ some '{' :=
            fun brace => unicode ⟨same, brace⟩
          have noUnicode' (same : c = 'u') : (rest ++ [')']).head? ≠ some '{' := by
            cases rest with
            | nil => exact fun brace => by cases brace
            | cons d rest => exact noUnicode same
          rw [escaped_other line rest (noHex rest) noUnicode blanks,
            escaped_other line _ (noHex _) noUnicode' blanks]
          exact oneEscape_pasted line c rest

theorem shortString_pasted (quote : Char) (other : (')' == quote) = false) {fuel fuel' : Nat}
    (line : Nat) (done : List UInt8) {cs : List Char} (enough : cs.length < fuel)
    (enough' : cs.length + 1 < fuel') :
    Leaves withRest cs.length (shortString quote fuel line done cs)
      (shortString quote fuel' line done (cs ++ [')'])) := by
  induction fuel generalizing fuel' line done cs with
  | zero => cases enough
  | succ fuel ih =>
    obtain ⟨fuel', rfl⟩ : ∃ k, fuel' = k + 2 := Nat.exists_eq_add_of_le' (by omega)
    cases cs with
    | nil =>
      have pasted : shortString quote (fuel' + 2) line done [')'] = none := by
        rw [shortString, other]
        · rfl
        · decide
      rw [shortString, List.nil_append, pasted]
      exact .fails
    | cons c rest =>
      rw [List.length_cons] at enough enough'
      rw [List.cons_append]
      by_cases escape : c = '\\'
      · subst escape
        rw [shortString_escaped, shortString_escaped]
        apply (escaped_pasted line rest).bind
        intro a after shorter
        have later := ih a.2 (a.1 ++ done) (show after.length < fuel by omega)
          (show after.length + 1 < fuel' + 1 by omega)
        exact later.mono (Nat.le_succ_of_le (Nat.le_of_lt shorter))
      · rw [shortString, shortString]
        · split
          · exact .leaves (_, line) (Nat.lt_succ_self _)
          · split
            · exact .fails
            · exact (ih _ _ (by omega) (by omega)).mono (Nat.le_succ _)
        · exact escape
        · exact escape

theorem length_numeralChars (mark : Char) (fuel : Nat) (cs : List Char) :
    (numeralChars mark fuel cs).length ≤ cs.length := by
  fun_induction numeralChars mark fuel cs <;> simp_all

theorem numeralChars_bracket {mark : Char} (other : (')' == mark) = false) (fuel : Nat) :
    numeralChars mark fuel [')'] = [] := by
  cases fuel with
  | zero => rfl
  | succ fuel =>
    have noMark : (Char.toLower ')' == mark) = false := other
    rw [numeralChars, noMark]
    rfl

theorem numeralChars_pasted {mark : Char} (other : (')' == mark) = false) {fuel fuel' : Nat}
    {cs : List Char} (enough : cs.length < fuel) (enough' : cs.length < fuel') :
    numeralChars mark fuel' (cs ++ [')']) = numeralChars mark fuel cs := by
  induction fuel generalizing fuel' cs with
  | zero => cases enough
  | succ fuel ih =>
    obtain ⟨fuel', rfl⟩ : ∃ k, fuel' = k + 1 := Nat.exists_eq_add_of_le' (by omega)
    match cs with
    | [] =>
      rw [List.nil_append, numeralChars_bracket other]
      rfl
    | [c] =>
      have ends := numeralChars_bracket other fuel'
      have nothing : numeralChars mark fuel [] = [] := by cases fuel <;> rfl
      rw [List.singleton_append, numeralChars, numeralChars, ends, nothing]
      rfl
    | c :: s :: after =>
      simp only [List.length_cons] at enough enough'
      have more := ih (show (s :: after).length < fuel by rw [List.length_cons]; omega)
        (show (s :: after).length < fuel' by rw [List.length_cons]; omega)
      have later := ih (show after.length < fuel by omega) (show after.length < fuel' by omega)
      rw [List.cons_append] at more
      rw [List.cons_append, List.cons_append, numeralChars, numeralChars, more, later]

theorem length_numeral (cs : List Char) : (numeral cs).length ≤ cs.length := by
  unfold numeral
  split
  · next x rest =>
    split
    · simpa using length_numeralChars 'p' (rest.length + 1) rest
    · exact length_numeralChars 'e' _ _
  · exact length_numeralChars 'e' _ _

theorem numeral_plain {c : Char} (other : c ≠ '0') (rest : List Char) :
    numeral (c :: rest) = numeralChars 'e' (rest.length + 2) (c :: rest) := by
  rw [numeral]
  · rfl
  · exact fun _ _ same => other (List.cons.inj same).1

theorem numeral_pasted (c : Char) (rest : List Char) :
    numeral (c :: (rest ++ [')'])) = numeral (c :: rest) := by
  have plain : numeralChars 'e' ((c :: (rest ++ [')'])).length + 1) (c :: (rest ++ [')'])) =
      numeralChars 'e' (rest.length + 2) (c :: rest) := by
    apply numeralChars_pasted rfl (show (c :: rest).length < rest.length + 2 by simp)
    simp only [List.length_cons, List.length_append]
    omega
  by_cases zero : c = '0'
  · subst zero
    cases rest with
    | nil => rfl
    | cons x rest =>
      rw [List.cons_append] at plain ⊢
      rw [numeral, numeral]
      split
      · rw [numeralChars_pasted rfl (Nat.lt_succ_self _) (by rw [List.length_append]; omega)]
      · exact plain
  · rw [numeral_plain zero, numeral_plain zero]
    exact plain

theorem startsNumber_pasted (c : Char) (rest : List Char) :
    startsNumber (c :: (rest ++ [')'])) = startsNumber (c :: rest) := by
  by_cases dot : c = '.'
  · subst dot
    cases rest with
    | nil => rfl
    | cons d rest => rfl
  · rw [startsNumber, startsNumber]
    · exact fun _ _ same => (dot same).elim
    · exact fun _ _ same => (dot same).elim

theorem isPrefixOf_pasted {s : List Char} (free : ')' ∉ s) (cs : List Char) :
    s.isPrefixOf (cs ++ [')']) = s.isPrefixOf cs := by
  induction s generalizing cs with
  | nil => simp
  | cons c s ih =>
    simp only [List.mem_cons, not_or] at free
    obtain ⟨other, free⟩ := free
    cases cs with
    | nil => simp [List.isPrefixOf, Ne.symm other]
    | cons d cs => rw [List.cons_append, List.isPrefixOf, List.isPrefixOf, ih free]

theorem symbolOf_pasted (c : Char) (rest : List Char) :
    symbolOf (c :: (rest ++ [')'])) = symbolOf (c :: rest) := by
  have free : ∀ s ∈ longSymbols, ')' ∉ s.toList := by decide
  have same : (longSymbols.find? fun s => s.toList.isPrefixOf (c :: (rest ++ [')']))) =
      longSymbols.find? fun s => s.toList.isPrefixOf (c :: rest) := by
    apply List.find?_congr
    intro s member
    exact isPrefixOf_pasted (free s member) (c :: rest)
  unfold symbolOf
  rw [same]
  rfl

theorem length_symbolOf (c : Char) (rest : List Char) :
    0 < (symbolOf (c :: rest)).length ∧ (symbolOf (c :: rest)).length ≤ rest.length + 1 := by
  have some : ∀ s ∈ longSymbols, 0 < s.length := by decide
  unfold symbolOf
  split
  · next s found =>
    have begins : s.toList.isPrefixOf (c :: rest) = true :=
      List.find?_some (p := fun s : String => s.toList.isPrefixOf (c :: rest)) found
    have inside := (List.isPrefixOf_iff_prefix.1 begins).length_le
    rw [String.length_toList] at inside
    exact ⟨some s (List.mem_of_find?_eq_some found), inside⟩
  · simp

theorem Leaves.string {n : Nat} {r r' : Option (Bytes × Nat × List Char)}
    (leaves : Leaves withRest n r r') :
    Leaves Prod.mk n (r.map fun (s, line, rest) => ((⟨.string s, line⟩ : Lexeme), rest))
      (r'.map fun (s, line, rest) => (⟨.string s, line⟩, rest)) :=
  leaves.map _ (fun a => ⟨.string a.1, a.2⟩) fun _ _ => rfl

theorem first?_pasted (line : Nat) (c : Char) (rest : List Char) :
    Leaves Prod.mk (rest.length + 1) (first? line (c :: rest))
      (first? line (c :: (rest ++ [')']))) := by
  rw [first?, first?, startsNumber_pasted, numeral_pasted, symbolOf_pasted]
  split
  · next start =>
    have part : isNameChar c = true := by simp [isNameChar, start]
    have shorter : ((c :: rest).dropWhile isNameChar).length < rest.length + 1 := by
      rw [List.dropWhile_cons_of_pos part]
      exact Nat.lt_succ_of_le (List.length_dropWhile_le isNameChar rest)
    rw [← List.cons_append, takeWhile_pasted (by decide), dropWhile_pasted (by decide)]
    exact .leaves (⟨_, line⟩ : Lexeme) shorter
  · split
    · have inside := length_numeral (c :: rest)
      simp only
      cases read : Num.ofChars? (numeral (c :: rest)) with
      | none => exact .fails
      | some n =>
        have positive : 0 < (numeral (c :: rest)).length := by
          apply List.length_pos_iff.2
          intro nothing
          rw [nothing] at read
          cases read
        rw [← List.cons_append, List.drop_append_of_le_length inside]
        apply Leaves.leaves (⟨.number n, line⟩ : Lexeme)
        rw [List.length_drop, List.length_cons]
        omega
    · split
      · next quote =>
        have other : (')' == c) = false := by
          simp only [Bool.or_eq_true, beq_iff_eq] at quote
          rcases quote with rfl | rfl <;> rfl
        apply Leaves.string
        apply (shortString_pasted c other line [] _ _).mono (Nat.le_succ _)
        · rw [List.length_cons]
          omega
        · simp only [List.length_cons, List.length_append]
          omega
      · have opens := longBracket?_pasted '[' rfl (c :: rest)
        rw [List.cons_append] at opens
        obtain ⟨first, second⟩ | ⟨level, text, shorter, first, second⟩ := opens
        · have noLevel : ((rest ++ [')']).head? == some '=') = (rest.head? == some '=') := by
            cases rest <;> rfl
          obtain ⟨positive, inside⟩ := length_symbolOf c rest
          simp only [first, second, noLevel]
          split
          · exact .fails
          · rw [← List.cons_append, List.drop_append_of_le_length inside]
            apply Leaves.leaves (⟨.symbol _, line⟩ : Lexeme)
            rw [List.length_drop, List.length_cons]
            omega
        · simp only [first, second]
          apply Leaves.string
          exact (longString_pasted level line text).mono (Nat.le_of_lt shorter)

structure TextEnd where
  line : Nat
  inComment : Bool

def staysOpen (text : List Char) : Bool :=
  (longBracket? '[' text).isNone && text.all fun c => !isLineEnd c

def scanTo? : Nat → Nat → List Char → Option (List Lexeme × TextEnd)
  | 0, _, _ => none
  | _ + 1, line, [] => some ([], ⟨line, false⟩)
  | fuel + 1, line, '-' :: '-' :: text =>
    if staysOpen text then some ([], ⟨line, true⟩)
    else (afterComment line text).bind fun (line, rest) => scanTo? fuel line rest
  | fuel + 1, line, c :: rest =>
    if isLineEnd c then scanTo? fuel (line + 1) (afterLineEnd (c :: rest))
    else if isSpace c then scanTo? fuel line rest
    else
      (first? line (c :: rest)).bind fun (x, rest) =>
        (scanTo? fuel x.line rest).map fun (words, last) => (x :: words, last)

theorem scanFrom_comment (fuel line : Nat) (text : List Char) :
    scanFrom (fuel + 1) line ('-' :: '-' :: text) =
      (afterComment line text).bind fun (line, rest) => scanFrom fuel line rest := by
  have noEnd : isLineEnd '-' = false := rfl
  have noBlank : isSpace '-' = false := rfl
  rw [scanFrom, noEnd, noBlank]
  cases read : afterComment line text <;> simp [read]

theorem scanFrom_other {c : Char} {rest : List Char}
    (noComment : ∀ text, c = '-' → rest ≠ '-' :: text) (fuel line : Nat) :
    scanFrom (fuel + 1) line (c :: rest) =
      if isLineEnd c then scanFrom fuel (line + 1) (afterLineEnd (c :: rest))
      else if isSpace c then scanFrom fuel line rest
      else
        (first? line (c :: rest)).bind fun (x, rest) =>
          (scanFrom fuel x.line rest).map fun words => x :: words := by
  rw [scanFrom]
  split
  · rfl
  · split
    · rfl
    · split
      · next same =>
        obtain ⟨dash, more⟩ := List.cons.inj same
        exact (noComment _ dash more).elim
      · cases first? line (c :: rest) <;> rfl

theorem afterComment_open {text : List Char} (stays : staysOpen text = true) (line : Nat) :
    afterComment line text = some (line, []) := by
  simp only [staysOpen, Bool.and_eq_true, Option.isNone_iff_eq_none] at stays
  rw [afterComment, stays.1]
  simpa using stays.2

theorem staysOpen_pasted (text : List Char) : staysOpen (text ++ [')']) = staysOpen text := by
  have line : (text ++ [')']).all (fun c => !isLineEnd c) = text.all fun c => !isLineEnd c := by
    simp [isLineEnd]
  obtain ⟨first, second⟩ | ⟨level, rest, -, first, second⟩ :=
    longBracket?_pasted '[' rfl text
  · rw [staysOpen, staysOpen, first, second, line]
  · rw [staysOpen, staysOpen, first, second]
    rfl

theorem afterComment_pasted {text : List Char} (ends : staysOpen text = false) (line : Nat) :
    Leaves Prod.mk (text.length + 1) (afterComment line text)
      (afterComment line (text ++ [')'])) := by
  obtain ⟨first, second⟩ | ⟨level, rest, shorter, first, second⟩ :=
    longBracket?_pasted '[' rfl text
  · have some : (text.dropWhile fun c => !isLineEnd c).isEmpty = false := by
      simpa [staysOpen, first] using ends
    simp only [afterComment, first, second, List.dropWhile_append, some]
    exact .leaves line (Nat.lt_succ_of_le (List.length_dropWhile_le _ text))
  · simp only [afterComment, first, second]
    apply ((longString_pasted level line rest).mono (Nat.le_succ_of_le (Nat.le_of_lt shorter))).map
      _ Prod.snd
    exact fun _ _ => rfl

def closed (words : List Lexeme) (last : TextEnd) : List Lexeme :=
  if last.inComment then words else words ++ [⟨.symbol ")", last.line⟩]

theorem scanFrom_eq {fuel line : Nat} {cs : List Char} (enough : cs.length < fuel) :
    scanFrom fuel line cs = (scanTo? fuel line cs).map Prod.fst := by
  fun_induction scanTo? fuel line cs with
  | case1 => cases enough
  | case2 => rfl
  | case3 fuel line text stays =>
    simp only [List.length_cons] at enough
    obtain ⟨fuel, rfl⟩ : ∃ k, fuel = k + 1 := Nat.exists_eq_add_of_le' (by omega)
    rw [scanFrom_comment, afterComment_open stays]
    rfl
  | case4 fuel line text ends ih =>
    simp only [List.length_cons] at enough
    rw [scanFrom_comment]
    obtain ⟨read, -⟩ | ⟨line', rest, shorter, read, -⟩ :=
      afterComment_pasted (Bool.eq_false_iff.2 ends) line
    · rw [read]
      rfl
    · rw [read]
      exact ih line' rest (by omega)
  | case5 fuel line c rest noComment isEnd ih =>
    have shorter := length_afterLineEnd c rest
    rw [List.length_cons] at enough
    rw [scanFrom_other noComment, if_pos isEnd]
    exact ih (by omega)
  | case6 fuel line c rest noComment noEnd blank ih =>
    rw [scanFrom_other noComment, if_neg noEnd, if_pos blank]
    exact ih (Nat.lt_of_succ_lt_succ enough)
  | case7 fuel line c rest noComment noEnd noBlank ih =>
    rw [List.length_cons] at enough
    rw [scanFrom_other noComment, if_neg noEnd, if_neg noBlank]
    obtain ⟨read, -⟩ | ⟨x, after, shorter, read, -⟩ := first?_pasted line c rest
    · rw [read]
      rfl
    · rw [read]
      simp only [Option.bind_some]
      rw [ih x after (by omega)]
      cases scanTo? fuel x.line after <;> rfl

theorem closed_cons (x : Lexeme) (words : List Lexeme) (last : TextEnd) :
    closed (x :: words) last = x :: closed words last := by
  unfold closed
  split <;> rfl

theorem noComment_pasted {c : Char} {rest : List Char}
    (noComment : ∀ text, c = '-' → rest ≠ '-' :: text) (text : List Char) (dash : c = '-') :
    rest ++ [')'] ≠ '-' :: text := by
  cases rest with
  | nil => exact fun same => absurd (List.cons.inj same).1 (by decide)
  | cons d rest =>
    intro same
    obtain ⟨rfl, -⟩ := List.cons.inj same
    exact noComment rest dash rfl

theorem scanFrom_pasted {fuel fuel' line : Nat} {cs : List Char} (enough : cs.length < fuel)
    (enough' : cs.length + 1 < fuel') :
    scanFrom fuel' line (cs ++ [')']) =
      (scanTo? fuel line cs).map fun (words, last) => closed words last := by
  fun_induction scanTo? fuel line cs generalizing fuel' with
  | case1 => cases enough
  | case2 =>
    obtain ⟨k, rfl⟩ : ∃ k, fuel' = k + 2 := Nat.exists_eq_add_of_le' enough'
    rfl
  | case3 fuel line text stays =>
    obtain ⟨k, rfl⟩ : ∃ k, fuel' = k + 2 := Nat.exists_eq_add_of_le' (by omega)
    have more : staysOpen (text ++ [')']) = true := (staysOpen_pasted text).trans stays
    rw [List.cons_append, List.cons_append, scanFrom_comment, afterComment_open more]
    rfl
  | case4 fuel line text ends ih =>
    simp only [List.length_cons] at enough enough'
    obtain ⟨k, rfl⟩ : ∃ k, fuel' = k + 1 := Nat.exists_eq_add_of_le' (by omega)
    rw [List.cons_append, List.cons_append, scanFrom_comment]
    obtain ⟨first, second⟩ | ⟨line', rest, shorter, first, second⟩ :=
      afterComment_pasted (Bool.eq_false_iff.2 ends) line
    · rw [first, second]
      rfl
    · rw [first, second]
      exact ih line' rest (by omega) (by omega)
  | case5 fuel line c rest noComment isEnd ih =>
    have shorter := length_afterLineEnd c rest
    rw [List.length_cons] at enough enough'
    obtain ⟨k, rfl⟩ : ∃ k, fuel' = k + 1 := Nat.exists_eq_add_of_le' (by omega)
    rw [List.cons_append, scanFrom_other (noComment_pasted noComment), if_pos isEnd,
      afterLineEnd_pasted]
    exact ih (by omega) (by omega)
  | case6 fuel line c rest noComment noEnd blank ih =>
    rw [List.length_cons] at enough enough'
    obtain ⟨k, rfl⟩ : ∃ k, fuel' = k + 1 := Nat.exists_eq_add_of_le' (by omega)
    rw [List.cons_append, scanFrom_other (noComment_pasted noComment), if_neg noEnd, if_pos blank]
    exact ih (by omega) (by omega)
  | case7 fuel line c rest noComment noEnd noBlank ih =>
    rw [List.length_cons] at enough enough'
    obtain ⟨k, rfl⟩ : ∃ k, fuel' = k + 1 := Nat.exists_eq_add_of_le' (by omega)
    rw [List.cons_append, scanFrom_other (noComment_pasted noComment), if_neg noEnd,
      if_neg noBlank]
    obtain ⟨first, second⟩ | ⟨x, after, shorter, first, second⟩ := first?_pasted line c rest
    · rw [first, second]
      rfl
    · rw [first, second]
      simp only [Option.bind_some]
      rw [ih x after (by omega) (by omega)]
      cases scanTo? fuel x.line after with
      | none => rfl
      | some scanned => exact congrArg some (closed_cons x scanned.1 scanned.2).symm

theorem ofWord_ne {word other : String} (unknown : keywords.contains other = false) :
    ofWord word ≠ .keyword other := by
  unfold ofWord
  split
  · next known =>
    intro same
    cases same
    rw [known] at unknown
    cases unknown
  · exact nofun

theorem string_ne {r : Option (Bytes × Nat × List Char)} {x : Lexeme} {rest : List Char}
    {other : String}
    (read : (r.map fun (s, line, rest) => ((⟨.string s, line⟩ : Lexeme), rest)) = some (x, rest)) :
    x.token ≠ .keyword other := by
  obtain ⟨_, -, same⟩ := Option.map_eq_some_iff.1 read
  cases same
  exact nofun

theorem first?_ne {line : Nat} {cs rest : List Char} {x : Lexeme} {other : String}
    (unknown : keywords.contains other = false) (read : first? line cs = some (x, rest)) :
    x.token ≠ .keyword other := by
  unfold first? at read
  split at read
  · cases read
  · split at read
    · cases read
      exact ofWord_ne unknown
    · split at read
      · obtain ⟨n, -, same⟩ := Option.map_eq_some_iff.1 read
        cases same
        exact nofun
      · split at read
        · exact string_ne read
        · split at read
          · exact string_ne read
          · split at read
            · cases read
            · cases read
              exact nofun

theorem scanFrom_ne {fuel line : Nat} {cs : List Char} {words : List Lexeme} {other : String}
    (unknown : keywords.contains other = false) (scanned : scanFrom fuel line cs = some words) :
    ∀ x ∈ words, x.token ≠ .keyword other := by
  fun_induction scanFrom fuel line cs generalizing words with
  | case1 => cases scanned
  | case2 =>
    cases scanned
    exact nofun
  | case3 _ _ _ _ _ ih => exact ih scanned
  | case4 _ _ _ _ _ _ ih => exact ih scanned
  | case5 _ _ _ _ _ _ _ _ _ _ _ ih => exact ih scanned
  | case6 => cases scanned
  | case7 fuel line c cs _ _ x rest _ read ih =>
    obtain ⟨others, more, rfl⟩ := Option.map_eq_some_iff.1 scanned
    intro y member
    rcases List.mem_cons.1 member with rfl | later
    · exact first?_ne unknown read
    · exact ih more y later
  | case8 => cases scanned

def scanned? (text : String) : Option (List Lexeme × TextEnd) :=
  scanTo? (text.length + 1) 1 text.toList

theorem length_lt (text : String) : text.toList.length < text.length + 1 := by
  rw [String.length_toList]
  exact Nat.lt_succ_self _

def endOf? (text : String) : Option TextEnd := (scanned? text).map Prod.snd

theorem scan_eq (text : String) : scan text = (scanned? text).map Prod.fst :=
  scanFrom_eq (length_lt text)

theorem scanned?_eq_some_iff {text : String} {words : List Lexeme} {last : TextEnd} :
    scanned? text = some (words, last) ↔ scan text = some words ∧ endOf? text = some last := by
  rw [scan_eq, endOf?]
  cases scanned? text with
  | none => simp
  | some result => simp [Prod.ext_iff]

theorem scanFrom_first {c : Char} {cs rest : List Char} {x : Lexeme} {line : Nat}
    (starts : c ≠ '-' ∧ isLineEnd c = false ∧ isSpace c = false)
    (read : first? line (c :: cs) = some (x, rest)) (fuel : Nat) :
    scanFrom (fuel + 1) line (c :: cs) =
      (scanFrom fuel x.line rest).map fun words => x :: words := by
  obtain ⟨noComment, noEnd, noBlank⟩ := starts
  rw [scanFrom_other (fun _ dash => (noComment dash).elim), noEnd, noBlank, read]
  rfl

theorem first?_return (rest : List Char) :
    first? 1 ('r' :: 'e' :: 't' :: 'u' :: 'r' :: 'n' :: ' ' :: rest) =
      some (⟨.keyword "return", 1⟩, ' ' :: rest) := by
  have read : first? 1 ("return".toList ++ ' ' :: rest) =
      some (⟨ofWord "return", 1⟩, ' ' :: rest) :=
    first?_name ⟨⟨'r', _, rfl, by decide⟩, Rules.forall_chars (by decide)⟩ rfl 1
  exact read

theorem scan_wrapped (text : String) :
    scan ("return (" ++ text ++ ")") = (scanned? text).map fun (words, last) =>
      ⟨.keyword "return", 1⟩ :: ⟨.symbol "(", 1⟩ :: closed words last := by
  have chars : ("return (" ++ text ++ ")").toList =
      'r' :: 'e' :: 't' :: 'u' :: 'r' :: 'n' :: ' ' :: '(' :: (text.toList ++ [')']) := by
    simp
  have count : ("return (" ++ text ++ ")").length + 1 = text.length + 7 + 1 + 1 + 1 := by
    simp only [String.length_append]
    show 8 + text.length + 1 + 1 = _
    omega
  have opens : first? 1 ('(' :: (text.toList ++ [')'])) =
      some (⟨.symbol "(", 1⟩, text.toList ++ [')']) :=
    first?_symbol rfl rfl rfl rfl
  have inside : scanFrom (text.length + 7) 1 (text.toList ++ [')']) =
      (scanned? text).map fun scanned => closed scanned.1 scanned.2 := by
    have length := length_lt text
    exact scanFrom_pasted length (by omega)
  have blank (cs : List Char) (fuel : Nat) :
      scanFrom (fuel + 1) 1 (' ' :: cs) = scanFrom fuel 1 cs := rfl
  rw [scan, chars, count, scanFrom_first (by decide) (first?_return _), blank,
    scanFrom_first (by decide) opens, inside]
  cases scanned? text <;> rfl

end CallGuard.Lua.Token
