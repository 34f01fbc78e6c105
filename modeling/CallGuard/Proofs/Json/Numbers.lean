import CallGuard.Proofs.Json.Spelling
import CallGuard.Proofs.Rules.Spelling
import Mathlib

set_option autoImplicit false

namespace CallGuard.Json

open Reader

namespace Reader

-- What does not go on with a number in front of it.
def Closes (cs : List Char) : Prop :=
  ∀ c ∈ cs.head?, c.isDigit = false ∧ c ≠ '.' ∧ c ≠ 'e' ∧ c ≠ 'E'

theorem closes_nil : Closes [] := by simp [Closes]

theorem takeDigits_append {rest : List Char} (closes : Closes rest) (cs : List Char) :
    takeDigits (cs ++ rest) = ((takeDigits cs).1, (takeDigits cs).2 ++ rest) := by
  induction cs with
  | nil =>
    cases rest with
    | nil => rfl
    | cons c rest =>
      obtain ⟨noDigit, -⟩ := closes c rfl
      simp [takeDigits, noDigit]
  | cons c cs ih =>
    by_cases digit : c.isDigit = true
    · simpa [takeDigits, digit] using ih
    · simp [takeDigits, digit]

theorem fraction?_append {rest : List Char} (closes : Closes rest) {cs left : List Char}
    {ds : List Nat} (read : fraction? cs = some (ds, left)) :
    fraction? (cs ++ rest) = some (ds, left ++ rest) := by
  cases cs with
  | nil =>
    cases read
    cases rest with
    | nil => rfl
    | cons c rest =>
      obtain ⟨-, noPoint, -⟩ := closes c rfl
      simp [fraction?, noPoint]
  | cons c cs =>
    by_cases point : c = '.'
    · subst point
      simp only [List.cons_append, fraction?, takeDigits_append closes] at read ⊢
      cases digits : takeDigits cs with
      | mk found after =>
        rw [digits] at read
        cases found with
        | nil => cases read
        | cons d ds =>
          cases read
          rfl
    · have whole (ds : List Char) : fraction? (c :: ds) = some ([], c :: ds) := by
        simp [fraction?, point]
      rw [whole] at read
      cases read
      exact whole (cs ++ rest)

def markedDigits? (below : Bool) (cs : List Char) :
    Option (Option (Bool × List Nat) × List Char) :=
  match takeDigits cs with
  | ([], _) => none
  | (ds, rest) => some (some (below, ds), rest)

theorem markedDigits?_append {rest : List Char} (closes : Closes rest) {below : Bool}
    {cs left : List Char} {e : Option (Bool × List Nat)}
    (read : markedDigits? below cs = some (e, left)) :
    markedDigits? below (cs ++ rest) = some (e, left ++ rest) := by
  unfold markedDigits? at read ⊢
  rw [takeDigits_append closes]
  cases digits : takeDigits cs with
  | mk found after =>
    rw [digits] at read
    cases found with
    | nil => cases read
    | cons d ds =>
      cases read
      rfl

def signed : List Char → Bool × List Char
  | '+' :: rest => (false, rest)
  | '-' :: rest => (true, rest)
  | rest => (false, rest)

theorem signed_append {cs : List Char} (given : cs ≠ []) (rest : List Char) :
    signed (cs ++ rest) = ((signed cs).1, (signed cs).2 ++ rest) := by
  cases cs with
  | nil => exact absurd rfl given
  | cons s cs =>
    by_cases plus : s = '+'
    · subst plus
      rfl
    · by_cases minus : s = '-'
      · subst minus
        rfl
      · simp [signed, plus, minus]

theorem exponent?_marked {c : Char} (mark : c = 'e' ∨ c = 'E') (cs : List Char) :
    exponent? (c :: cs) = markedDigits? (signed cs).1 (signed cs).2 := by
  simp only [exponent?, mark, if_true]
  rfl

theorem exponent?_append {rest : List Char} (closes : Closes rest) {cs left : List Char}
    {e : Option (Bool × List Nat)} (read : exponent? cs = some (e, left)) :
    exponent? (cs ++ rest) = some (e, left ++ rest) := by
  cases cs with
  | nil =>
    cases read
    cases rest with
    | nil => rfl
    | cons c rest =>
      obtain ⟨-, -, noMark, noMark'⟩ := closes c rfl
      simp [exponent?, noMark, noMark']
  | cons c cs =>
    by_cases mark : c = 'e' ∨ c = 'E'
    · rw [exponent?_marked mark] at read
      have given : cs ≠ [] := by
        rintro rfl
        cases read
      rw [List.cons_append, exponent?_marked mark, signed_append given]
      exact markedDigits?_append closes read
    · simp only [exponent?, mark, if_false, List.cons_append] at read ⊢
      cases read
      rfl

def unsigned? (negative : Bool) (cs : List Char) : Option (Raw × List Char) :=
  match takeDigits cs with
  | ([], _) => none
  | (0 :: _ :: _, _) => none
  | (whole, rest) =>
    match fraction? rest with
    | none => none
    | some (fraction, rest) =>
      match exponent? rest with
      | none => none
      | some (exponent, rest) => some (.num ⟨negative, whole, fraction, exponent⟩, rest)

def negated : List Char → Bool × List Char
  | '-' :: rest => (true, rest)
  | cs => (false, cs)

theorem negated_append {cs : List Char} (given : cs ≠ []) (rest : List Char) :
    negated (cs ++ rest) = ((negated cs).1, (negated cs).2 ++ rest) := by
  cases cs with
  | nil => exact absurd rfl given
  | cons c cs =>
    by_cases minus : c = '-'
    · subst minus
      rfl
    · simp [negated, minus]

theorem number?_eq (cs : List Char) : number? cs = unsigned? (negated cs).1 (negated cs).2 := rfl

theorem unsigned?_append {rest : List Char} (closes : Closes rest) {negative : Bool}
    {cs left : List Char} {r : Raw} (read : unsigned? negative cs = some (r, left)) :
    unsigned? negative (cs ++ rest) = some (r, left ++ rest) := by
  unfold unsigned? at read ⊢
  rw [takeDigits_append closes]
  cases digits : takeDigits cs with
  | mk whole after =>
    rw [digits] at read
    dsimp only at read ⊢
    split at read
    · cases read
    · cases read
    · next first second noDigit leading same =>
      cases same
      cases fraction : fraction? after with
      | none => simp [fraction] at read
      | some found =>
        obtain ⟨ds, after'⟩ := found
        cases exponent : exponent? after' with
        | none => simp [fraction, exponent] at read
        | some found =>
          obtain ⟨e, after''⟩ := found
          simp only [fraction, exponent, Option.some.injEq, Prod.mk.injEq] at read
          obtain ⟨rfl, rfl⟩ := read
          simp [fraction?_append closes fraction, exponent?_append closes exponent]

theorem number?_append {rest : List Char} (closes : Closes rest) {cs left : List Char} {r : Raw}
    (read : number? cs = some (r, left)) : number? (cs ++ rest) = some (r, left ++ rest) := by
  have given : cs ≠ [] := by
    rintro rfl
    cases read
  rw [number?_eq] at read ⊢
  rw [negated_append given]
  exact unsigned?_append closes read

theorem number?_starts {cs : List Char} {x : Raw × List Char} (read : number? cs = some x) :
    ∃ c ds, cs = c :: ds ∧ c ∈ '-' :: Rules.digits := by
  cases cs with
  | nil => cases read
  | cons c ds =>
    refine ⟨c, ds, rfl, ?_⟩
    by_cases minus : c = '-'
    · exact List.mem_cons.2 (.inl minus)
    · by_cases digit : c.isDigit = true
      · exact List.mem_cons_of_mem _ (Rules.mem_digits digit)
      · simp [number?_eq, negated, minus, unsigned?, takeDigits, digit] at read

theorem value?_number (fuel : Nat) {c : Char} (starts : c ∈ '-' :: Rules.digits)
    (cs : List Char) : value? (fuel + 1) (c :: cs) = number? (c :: cs) := by
  simp only [Rules.digits, List.mem_cons, List.not_mem_nil, or_false] at starts
  rcases starts with rfl | rfl | rfl | rfl | rfl | rfl | rfl | rfl | rfl | rfl | rfl <;>
    simp [value?, isSpace]

theorem items?_eq_arr {fuel : Nat} {done : List Raw} {cs left : List Char} {r : Raw}
    (read : items? fuel done cs = some (r, left)) : ∃ items, r = .arr items := by
  induction fuel generalizing done cs with
  | zero => simp [items?] at read
  | succ fuel ih =>
    rw [items?] at read
    split at read
    · cases read
    · split at read
      · exact ih read
      · cases read
        exact ⟨_, rfl⟩
      · cases read

theorem fields?_eq_obj {fuel : Nat} {done : List (Option String × Raw)} {cs left : List Char}
    {r : Raw} (read : fields? fuel done cs = some (r, left)) : ∃ fields, r = .obj fields := by
  induction fuel generalizing done cs with
  | zero => simp [fields?] at read
  | succ fuel ih =>
    rw [fields?] at read
    split at read
    · split at read
      · cases read
      · split at read
        · split at read
          · cases read
          · split at read
            · exact ih read
            · cases read
              exact ⟨_, rfl⟩
            · cases read
        · cases read
    · cases read

theorem number?_of_value? {fuel : Nat} {cs left : List Char} {l : Literal}
    (read : value? fuel cs = some (.num l, left)) :
    number? (skipSpace cs) = some (.num l, left) := by
  cases fuel with
  | zero => cases read
  | succ fuel =>
    rw [value?] at read
    split at read
    · cases read
    · cases read
    · cases read
    · obtain ⟨found, -, same⟩ := Option.map_eq_some_iff.1 read
      cases same
    · split at read
      · cases read
      · obtain ⟨items, same⟩ := items?_eq_arr read
        cases same
    · split at read
      · cases read
      · obtain ⟨fields, same⟩ := fields?_eq_obj read
        cases same
    · exact read

end Reader

def Raw.HasText (r : Raw) (cs : List Char) : Prop :=
  ∀ fuel rest, cs.length < fuel → Closes rest →
    ∃ left, value? fuel (cs ++ rest) = some (r, left) ∧ skipSpace left = skipSpace rest

namespace Raw

theorem HasText.ofText? {r : Raw} {text : String} (has : r.HasText text.toList) :
    Raw.ofText? text = some r := by
  obtain ⟨left, read, same⟩ := has (text.toList.length + 1) [] (Nat.lt_succ_self _) closes_nil
  rw [List.append_nil] at read
  have nothing : skipSpace left = [] := same
  simp [Raw.ofText?, read, nothing]

theorem hasText_of_number? {cs left : List Char} {l : Literal}
    (read : number? (skipSpace cs) = some (.num l, left)) (blank : skipSpace left = []) :
    HasText (.num l) cs := by
  intro fuel rest enough closes
  obtain ⟨fuel, rfl⟩ : ∃ n, fuel = n + 1 := ⟨fuel - 1, by omega⟩
  obtain ⟨c, ds, starts, first⟩ := number?_starts read
  have skipped : skipSpace (cs ++ rest) = c :: (ds ++ rest) := by
    rw [skipSpace, List.dropWhile_append]
    rw [skipSpace] at starts
    simp [starts]
  have same : value? (fuel + 1) (cs ++ rest) = value? (fuel + 1) (skipSpace (cs ++ rest)) := by
    simp only [value?, skipSpace_skipSpace]
  rw [starts] at read
  refine ⟨left ++ rest, ?_, ?_⟩
  · rw [same, skipped, value?_number fuel first, ← List.cons_append]
    exact number?_append closes read
  · rw [skipSpace, List.dropWhile_append]
    rw [skipSpace] at blank
    simp [blank, skipSpace]

theorem hasText_of_ofText? {text : String} {l : Literal}
    (read : Raw.ofText? text = some (.num l)) : HasText (.num l) text.toList := by
  simp only [Raw.ofText?] at read
  split at read
  · next r rest value =>
    split at read
    · next blank =>
      cases read
      exact hasText_of_number? (number?_of_value? value) (List.isEmpty_iff.1 blank)
    · cases read
  · cases read

end Raw

namespace Literal

def InRange (i : Int) : Prop := -0x8000000000000000 ≤ i ∧ i < 0x10000000000000000

theorem le_foldl (ds : List Nat) (n : Nat) : n ≤ ds.foldl (fun v d => 10 * v + d) n := by
  induction ds generalizing n with
  | nil => exact Nat.le_refl n
  | cons d ds ih => exact Nat.le_trans (by omega) (ih (10 * n + d))

theorem significant_eq {ds : List Nat} {n : Nat}
    (fits : ds.foldl (fun v d => 10 * v + d) n < coefficientBound) :
    significant n ds = (ds.foldl (fun v d => 10 * v + d) n, 0) := by
  induction ds generalizing n with
  | nil => rfl
  | cons d ds ih =>
    have here : 10 * n + d < coefficientBound := Nat.lt_of_le_of_lt (le_foldl ds _) fits
    rw [significant, if_pos here]
    exact ih fits

theorem significant_lt {ds : List Nat} {n : Nat} (low : n < coefficientBound) :
    (significant n ds).1 < coefficientBound := by
  induction ds generalizing n with
  | nil => exact low
  | cons d ds ih =>
    rw [significant]
    split
    · next fits => exact ih fits
    · exact low

theorem double_ne_integer (x : Float) (i : Int) :
    some (Number.double x) ≠ some (Number.integer i) := by
  rintro ⟨⟩

theorem double?_ne_integer (negative : Bool) (n : Nat) (e i : Int) :
    double? negative n e ≠ some (.integer i) := by
  intro read
  obtain ⟨x, -, same⟩ := Option.map_eq_some_iff.1 read
  exact double_ne_integer _ i (congrArg some same)

theorem inRange_of_number? {l : Literal} {i : Int} (read : l.number? = some (.integer i)) :
    InRange i := by
  have bound : (significant 0 l.whole).1 < 0x10000000000000000 := significant_lt (by decide)
  unfold number? at read
  -- Under its own name, an exponent would be counted up to its bound one by one.
  obtain ⟨value, same⟩ : ∃ value, value = exponentValue := ⟨_, rfl⟩
  rw [← same] at read
  cases digits : significant 0 l.whole with
  | mk n dropped =>
    rw [digits] at bound read
    dsimp only at bound read
    split at read
    · split at read
      · cases read
        exact ⟨by omega, by omega⟩
      · split at read
        · exact absurd read (double_ne_integer _ i)
        · next small =>
          cases read
          exact ⟨by omega, by omega⟩
    · split at read
      · exact absurd read (double?_ne_integer _ _ _ i)
      · split at read
        · exact absurd read (double?_ne_integer _ _ _ i)
        · split at read
          · cases read
          · exact absurd read (double_ne_integer _ i)

def ofInt (i : Int) : Literal where
  negative := decide (i < 0)
  whole := (Nat.toDigits 10 i.natAbs).map digitValue
  fraction := []
  exponent := none

theorem number?_ofInt {i : Int} (range : InRange i) : (ofInt i).number? = some (.integer i) := by
  obtain ⟨low, high⟩ := range
  have value : ((Nat.toDigits 10 i.natAbs).map digitValue).foldl (fun v d => 10 * v + d) 0 =
      i.natAbs := by
    rw [List.foldl_map]
    exact Rules.foldl_toDigits i.natAbs
  have fits : i.natAbs < coefficientBound := by
    show i.natAbs < 0x10000000000000000
    omega
  have digits := significant_eq (value.symm ▸ fits)
  rw [value] at digits
  by_cases negative : i < 0
  · have inside : ¬ (i.natAbs = 0 ∨ 0x8000000000000000 < i.natAbs) := by omega
    have back : -(i.natAbs : Int) = i := by omega
    simp only [number?, ofInt, digits, negative, inside, back]
    rfl
  · have back : (i.natAbs : Int) = i := by omega
    simp only [number?, ofInt, digits, negative, back]
    rfl

end Literal

theorem head_toDigits (n : Nat) (positive : 0 < n) :
    ∀ c ∈ (Nat.toDigits 10 n).head?, c ≠ '0' := by
  induction n using Nat.strongRecOn with
  | ind n ih =>
    by_cases small : n < 10
    · rw [Nat.toDigits_of_lt_base small]
      interval_cases n <;> simp [Nat.digitChar]
    · rw [Nat.toDigits_of_base_le (by decide) (Nat.le_of_not_lt small), List.head?_append]
      have first := ih (n / 10) (by omega) (by omega)
      cases digits : Nat.toDigits 10 (n / 10) with
      | nil => exact absurd digits (Rules.toDigits_ne_nil _)
      | cons c cs => simpa [digits] using first

theorem no_leading_zero (n d : Nat) (ds : List Nat) :
    (Nat.toDigits 10 n).map digitValue ≠ 0 :: d :: ds := by
  intro same
  obtain ⟨c, cs, digits, zero, more⟩ := List.map_eq_cons_iff.1 same
  have zeros : ∀ c ∈ Rules.digits, digitValue c = 0 → c = '0' := Rules.forall_chars (by decide)
  have digit : c.isDigit = true := Rules.all_isDigit n c (by simp [digits])
  have first := zeros c (Rules.mem_digits digit) zero
  rcases Nat.eq_zero_or_pos n with rfl | positive
  · cases digits
    cases more
  · exact head_toDigits n positive c (by simp [digits]) first

theorem unsigned?_toDigits (negative : Bool) (n : Nat) :
    unsigned? negative (Nat.toDigits 10 n) =
      some (.num ⟨negative, (Nat.toDigits 10 n).map digitValue, [], none⟩, []) := by
  have all := Rules.all_isDigit n
  have digits : takeDigits (Nat.toDigits 10 n) = ((Nat.toDigits 10 n).map digitValue, []) := by
    simp [takeDigits, List.takeWhile_eq_self_iff.2 all, List.dropWhile_eq_nil_iff.2 all]
  rw [unsigned?, digits]
  split
  · next same =>
    exact absurd (List.map_eq_nil_iff.1 (congrArg Prod.fst same)) (Rules.toDigits_ne_nil n)
  · next same => exact absurd (congrArg Prod.fst same) (no_leading_zero n _ _)
  · next same =>
    cases same
    rfl

theorem number?_integer (i : Int) :
    number? (Number.integer i).text.toList = some (.num (.ofInt i), []) := by
  rw [Number.text, Int.toString_eq_repr, Int.repr_eq_if, number?_eq, Literal.ofInt]
  split
  · next positive =>
    have size : i.toNat = i.natAbs := by omega
    have plain : negated (Nat.toDigits 10 i.natAbs) = (false, Nat.toDigits 10 i.natAbs) := by
      cases digits : Nat.toDigits 10 i.natAbs with
      | nil => rfl
      | cons c cs =>
        have digit : c.isDigit = true := Rules.all_isDigit i.natAbs c (by simp [digits])
        have noMinus : c ≠ '-' := by
          rintro rfl
          cases digit
        simp [negated, noMinus]
    rw [Nat.toList_repr, size, plain, unsigned?_toDigits]
    simp [Int.not_lt.2 positive]
  · next negative =>
    have size : (-i).toNat = i.natAbs := by omega
    have text : ("-" ++ (-i).toNat.repr).toList = '-' :: Nat.toDigits 10 i.natAbs := by
      simp [Nat.toList_repr, size]
    rw [text, negated, unsigned?_toDigits]
    simp [Int.not_le.1 negative]

theorem Raw.hasText_integer (i : Int) :
    HasText (.num (.ofInt i)) (Number.integer i).text.toList := by
  have read := number?_integer i
  obtain ⟨c, ds, starts, first⟩ := number?_starts read
  have solid : isSpace c = false := by
    have all : ∀ c ∈ '-' :: Rules.digits, isSpace c = false := Rules.forall_chars (by decide)
    exact all c first
  have found : number? (skipSpace (Number.integer i).text.toList) = some (.num (.ofInt i), []) := by
    rw [starts, skipSpace_cons solid, ← starts, read]
  exact hasText_of_number? found rfl

end CallGuard.Json
