import CallGuard.Http.CallTimeout
import Mathlib

set_option autoImplicit false

namespace CallGuard

namespace Text

def decimalValue (digits : List Char) : Nat :=
  digits.foldl (fun n c => 10 * n + (c.toNat - 48)) 0

theorem decimalValue_lt {digits : List Char} (all : ∀ c ∈ digits, c.isDigit = true) :
    decimalValue digits < 10 ^ digits.length := by
  induction digits using List.reverseRecOn with
  | nil => exact Nat.one_pos
  | append_singleton digits c ih =>
    have before := ih fun d member => all d (List.mem_append_left _ member)
    have digit : c.toNat - 48 ≤ 9 := by
      have small := all c (by simp)
      simp only [Char.isDigit, Bool.and_eq_true, decide_eq_true_eq, ge_iff_le,
        UInt32.le_iff_toNat_le] at small
      have upper : c.toNat ≤ 57 := small.2
      omega
    simp only [decimalValue, List.foldl_append, List.foldl_cons, List.foldl_nil,
      List.length_append, List.length_singleton, Nat.pow_succ] at before ⊢
    omega

theorem digits?_eq_some_iff (digits : List Char) (n : Nat) :
    digits? digits = some n ↔
      digits ≠ [] ∧ (∀ c ∈ digits, c.isDigit = true) ∧ n = decimalValue digits := by
  unfold digits? decimalValue
  split
  next unfit =>
    simp only [reduceCtorEq, false_iff]
    rintro ⟨some, decimal, -⟩
    rw [List.isEmpty_eq_false_iff.2 some, List.all_eq_true.2 decimal] at unfit
    cases unfit
  next fit =>
    simp only [Bool.or_eq_true, List.isEmpty_iff, Bool.not_eq_true', not_or,
      Bool.not_eq_false, List.all_eq_true] at fit
    simp only [Option.some.injEq]
    exact ⟨fun same => ⟨fit.1, fit.2, same.symm⟩, fun found => found.2.2.symm⟩

-- A number may have a plus sign in front.
def signs : List (List Char) := [[], ['+']]

theorem natural?_plus (bound : Nat) (digits : List Char) :
    natural? bound ('+' :: digits) = (digits? digits).filter (· < bound) := by
  simp only [natural?]
  cases digits? digits <;> simp [Option.filter]

theorem natural?_other {cs : List Char} (other : ∀ digits, cs ≠ '+' :: digits) (bound : Nat) :
    natural? bound cs = (digits? cs).filter (· < bound) := by
  simp only [natural?]
  cases digits? cs <;> simp [Option.filter]

theorem natural?_eq_some_iff (bound : Nat) (cs : List Char) (n : Nat) :
    natural? bound cs = some n ↔
      ∃ sign ∈ signs, ∃ digits, cs = sign ++ digits ∧ digits? digits = some n ∧ n < bound := by
  simp only [signs, List.mem_cons, List.not_mem_nil, or_false, exists_eq_or_imp, exists_eq_left,
    List.nil_append, exists_eq_left', List.singleton_append]
  by_cases signed : ∃ digits, cs = '+' :: digits
  · obtain ⟨digits, rfl⟩ := signed
    have noDigit : digits? ('+' :: digits) ≠ some n := by
      intro found
      have plus := ((digits?_eq_some_iff _ _).1 found).2.1 '+' List.mem_cons_self
      cases plus
    simp [natural?_plus, noDigit, Option.filter_eq_some_iff]
  · have other : ∀ digits, cs ≠ '+' :: digits := fun digits same => signed ⟨digits, same⟩
    simp [natural?_other other, other, Option.filter_eq_some_iff]

theorem utf8Len_of_ascii {cs : List Char} (ascii : ∀ c ∈ cs, c.utf8Size = 1) :
    String.utf8Len cs = cs.length := by
  induction cs with
  | nil => rfl
  | cons c cs ih =>
    have rest := ih fun d member => ascii d (List.mem_cons_of_mem c member)
    rw [String.utf8Len_cons, rest, ascii c List.mem_cons_self, List.length_cons]

theorem utf8Size_of_isDigit {c : Char} (digit : c.isDigit = true) : c.utf8Size = 1 := by
  simp only [Char.isDigit, Bool.and_eq_true, decide_eq_true_eq, ge_iff_le] at digit
  have narrow : c.val ≤ 0x7f := UInt32.le_trans digit.2 (by decide)
  simp [Char.utf8Size, narrow]

end Text

namespace Timeout

inductive IsUnit : Char → Nat → Prop
  | hour : IsUnit 'H' (3600 * 10 ^ 9)
  | minute : IsUnit 'M' (60 * 10 ^ 9)
  | second : IsUnit 'S' (10 ^ 9)
  | millisecond : IsUnit 'm' (10 ^ 6)
  | microsecond : IsUnit 'u' (10 ^ 3)
  | nanosecond : IsUnit 'n' 1

theorem unit?_eq_some_iff (unit : Char) (scale : Nat) :
    unit? unit = some scale ↔ IsUnit unit scale := by
  constructor
  · intro found
    unfold unit? at found
    split at found
    · cases found; exact .hour
    · cases found; exact .minute
    · cases found; exact .second
    · cases found; exact .millisecond
    · cases found; exact .microsecond
    · cases found; exact .nanosecond
    · cases found
  · intro listed
    cases listed <;> rfl

theorem IsUnit.ascii {unit : Char} {scale : Nat} (listed : IsUnit unit scale) :
    unit.utf8Size = 1 := by
  cases listed <;> decide

theorem IsUnit.le_hour {unit : Char} {scale : Nat} (listed : IsUnit unit scale) :
    scale ≤ 3600 * 10 ^ 9 := by
  cases listed <;> decide

-- Without a sign this is the documented form.
structure Grants (sign : List Char) (s : String) (t : Timeout) (digits : List Char) (unit : Char)
    (scale : Nat) : Prop where
  spelled : (Text.trim s).toList = sign ++ digits ++ [unit]
  some : digits ≠ []
  short : sign.length + digits.length ≤ 8
  decimal : ∀ c ∈ digits, c.isDigit = true
  unit : IsUnit unit scale
  worth : t.nanoseconds = Text.decimalValue digits * scale

def Spells (sign : List Char) (s : String) (t : Timeout) : Prop :=
  ∃ digits unit scale, Grants sign s t digits unit scale

-- At most nine bytes, blanks apart, of which the last character takes several.
def Splits (s : String) : Prop :=
  (Text.trim s).utf8ByteSize ≤ 9 ∧
    ∃ before last, (Text.trim s).toList = before ++ [last] ∧ 1 < last.utf8Size

theorem ofText_of_reverse {s : String} {unit : Char} {before : List Char}
    (spelled : (Text.trim s).toList = before ++ [unit]) :
    ofText s =
      if (Text.trim s).utf8ByteSize < 2 ∨ 9 < (Text.trim s).utf8ByteSize then .ok none
      else if 1 < unit.utf8Size then .error .crash
      else .ok (ofParts before unit) := by
  simp only [ofText, spelled, List.reverse_append, List.reverse_singleton, List.singleton_append,
    List.reverse_reverse]

theorem ofText_of_empty {s : String} (spelled : (Text.trim s).toList = []) :
    ofText s = .ok none := by
  have short : (Text.trim s).utf8ByteSize < 2 := by
    rw [← String.utf8Len_toList, spelled]
    decide
  simp only [ofText, short, true_or, if_true]

theorem utf8ByteSize_of_spelled {s : String} {unit : Char} {before : List Char}
    (spelled : (Text.trim s).toList = before ++ [unit]) :
    (Text.trim s).utf8ByteSize = String.utf8Len before + unit.utf8Size := by
  rw [← String.utf8Len_toList, spelled, String.utf8Len_append]
  simp

theorem ofParts_eq_some_iff (number : List Char) (unit : Char) (t : Timeout) :
    ofParts number unit = some t ↔
      ∃ n scale, Text.natural? 0x10000000000000000 number = some n ∧ IsUnit unit scale ∧
        t.nanoseconds = n * scale := by
  have same : ∀ m, (⟨m⟩ : Timeout) = t ↔ t.nanoseconds = m := by
    intro m
    cases t
    simp [eq_comm]
  unfold ofParts
  cases Text.natural? 0x10000000000000000 number <;> cases scale : unit? unit <;>
    simp [← unit?_eq_some_iff, scale, same]

theorem Grants.seconds_lt {sign : List Char} {s : String} {t : Timeout} {digits : List Char}
    {unit : Char} {scale : Nat} (grants : Grants sign s t digits unit scale) :
    t.seconds < 2 ^ 64 := by
  have few : digits.length ≤ 8 := Nat.le_trans (Nat.le_add_left _ _) grants.short
  have value : Text.decimalValue digits < 10 ^ 8 :=
    Nat.lt_of_lt_of_le (Text.decimalValue_lt grants.decimal) (Nat.pow_le_pow_right (by decide) few)
  have worth : t.nanoseconds ≤ 10 ^ 8 * (3600 * 10 ^ 9) := by
    rw [grants.worth]
    exact Nat.mul_le_mul (Nat.le_of_lt value) grants.unit.le_hour
  unfold seconds
  omega

theorem ofText_of_grants {sign : List Char} (known : sign ∈ Text.signs) {s : String} {t : Timeout}
    {digits : List Char} {unit : Char} {scale : Nat}
    (grants : Grants sign s t digits unit scale) : ofText s = .ok (some t) := by
  obtain ⟨spelled, some, short, decimal, unit, worth⟩ := grants
  have ascii : String.utf8Len (sign ++ digits) = sign.length + digits.length := by
    rw [Text.utf8Len_of_ascii, List.length_append]
    intro c member
    rcases List.mem_append.1 member with sign | digit
    · fin_cases known
      · cases sign
      · cases List.mem_singleton.1 sign
        decide
    · exact Text.utf8Size_of_isDigit (decimal c digit)
  have size := utf8ByteSize_of_spelled spelled
  have positive := List.length_pos_iff.2 some
  rw [ascii, unit.ascii] at size
  rw [ofText_of_reverse spelled, if_neg (by omega), if_neg (by rw [unit.ascii]; decide)]
  refine congrArg Except.ok ((ofParts_eq_some_iff _ _ _).2 ⟨_, scale, ?_, unit, worth⟩)
  have value : Text.decimalValue digits < 10 ^ 8 :=
    Nat.lt_of_lt_of_le (Text.decimalValue_lt decimal)
      (Nat.pow_le_pow_right (by decide) (by omega))
  refine (Text.natural?_eq_some_iff _ _ _).2 ⟨sign, known, digits, rfl, ?_, by omega⟩
  exact (Text.digits?_eq_some_iff _ _).2 ⟨some, decimal, rfl⟩

theorem grants_of_ofText {s : String} {t : Timeout} (read : ofText s = .ok (some t)) :
    ∃ sign ∈ Text.signs, Spells sign s t := by
  rcases List.eq_nil_or_concat' (Text.trim s).toList with empty | ⟨before, unit, spelled⟩
  · rw [ofText_of_empty empty] at read
    cases read
  rw [ofText_of_reverse spelled] at read
  split at read
  · cases read
  next size =>
  split at read
  · cases read
  obtain ⟨n, scale, number, listed, worth⟩ := (ofParts_eq_some_iff _ _ _).1 (Except.ok.inj read)
  obtain ⟨sign, known, digits, rfl, found, -⟩ := (Text.natural?_eq_some_iff _ _ _).1 number
  obtain ⟨some, decimal, rfl⟩ := (Text.digits?_eq_some_iff _ _).1 found
  have bytes := utf8ByteSize_of_spelled spelled
  have narrow : digits.length ≤ String.utf8Len digits :=
    Nat.le_of_eq (Text.utf8Len_of_ascii fun c member =>
      Text.utf8Size_of_isDigit (decimal c member)).symm
  have signed : String.utf8Len sign = sign.length := by
    fin_cases known <;> rfl
  rw [String.utf8Len_append, listed.ascii, signed] at bytes
  exact ⟨sign, known, digits, unit, scale, spelled, some, by omega, decimal, listed, worth⟩

theorem ofText_crash_iff (s : String) : ofText s = .error .crash ↔ Splits s := by
  rcases List.eq_nil_or_concat' (Text.trim s).toList with empty | ⟨before, unit, spelled⟩
  · rw [ofText_of_empty empty, Splits]
    simp [empty]
  have bytes := utf8ByteSize_of_spelled spelled
  rw [ofText_of_reverse spelled, Splits]
  constructor
  · intro crashed
    split at crashed
    · cases crashed
    next size =>
    split at crashed
    next wide => exact ⟨by omega, before, unit, spelled, wide⟩
    · cases crashed
  · rintro ⟨size, others, last, again, wide⟩
    obtain ⟨rfl, same⟩ := List.append_inj' (spelled.symm.trans again) rfl
    cases List.singleton_inj.1 same
    rw [if_neg (by omega), if_pos wide]

theorem read_iff_spelled (s : String) :
    (∀ t, ofText s = .ok (some t) ↔ Spells [] s t ∨ Spells ['+'] s t) ∧
    (∀ sign t, Spells sign s t → t.seconds < 2 ^ 64) ∧
    (ofText s = .error .crash ↔ Splits s) ∧
    (ofText s = .ok none ↔ ¬ Splits s ∧ ∀ t, ¬ Spells [] s t ∧ ¬ Spells ['+'] s t) := by
  have reads : ∀ t, ofText s = .ok (some t) ↔ Spells [] s t ∨ Spells ['+'] s t := by
    intro t
    constructor
    · intro read
      obtain ⟨sign, known, spells⟩ := grants_of_ofText read
      fin_cases known
      · exact .inl spells
      · exact .inr spells
    · rintro (⟨_, _, _, grants⟩ | ⟨_, _, _, grants⟩)
      · exact ofText_of_grants (by simp [Text.signs]) grants
      · exact ofText_of_grants (by simp [Text.signs]) grants
  refine ⟨reads, ?_, ofText_crash_iff s, ?_⟩
  · rintro sign t ⟨_, _, _, grants⟩
    exact grants.seconds_lt
  · simp only [← ofText_crash_iff, ← not_or, ← reads]
    constructor
    · intro nothing
      simp [nothing]
    · rintro ⟨whole, unread⟩
      cases result : ofText s with
      | ok found =>
        cases found with
        | none => rfl
        | some t => exact absurd result (unread t)
      | error halt =>
        cases halt with
        | crash => exact absurd result whole
        | error e =>
          unfold ofText at result
          simp only at result
          split at result
          · cases result
          · split at result
            · cases result
            · split at result <;> cases result

theorem signed_number_read :
    ofText "+5S" = .ok (some ⟨5 * 10 ^ 9⟩) ∧ (∀ t, ¬ Spells [] "+5S" t) ∧
      ofText "5é" = .error .crash := by
  refine ⟨rfl, ?_, rfl⟩
  rintro t ⟨digits, unit, scale, grants⟩
  have text : ['+', '5', 'S'] = digits ++ [unit] := grants.spelled
  have whole : ['+', '5'] ++ ['S'] = digits ++ [unit] := text
  have spelled := (List.append_inj' whole rfl).1
  have plus := grants.decimal '+' (by simp [← spelled])
  cases plus

end Timeout

end CallGuard
