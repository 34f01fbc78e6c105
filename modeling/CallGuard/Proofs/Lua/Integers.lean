import CallGuard.Lua.State
import CallGuard.Proofs.Decimal.Doubles

set_option autoImplicit false

namespace CallGuard.Lua

open Decimal

theorem ofNumber_small {i : Int} (low : -2 ^ 63 ≤ i) (small : i < 2 ^ 63) :
    Value.ofNumber (.integer i) = .int (.ofInt i) := by
  have fits : fitsInt i = true := by
    unfold fitsInt smallestInt intBound
    simp only [Bool.and_eq_true, decide_eq_true_eq]
    omega
  simp [Value.ofNumber, fits]

theorem ofNumber_large {n : Nat} (large : 2 ^ 63 ≤ n) :
    Value.ofNumber (.integer n) = .float (.ofNat n) := by
  have unfit : fitsInt n = false := by
    unfold fitsInt smallestInt intBound
    simp only [Bool.and_eq_false_iff, decide_eq_false_iff_not]
    omega
  simp [Value.ofNumber, unfit]
  rfl

theorem compareIntFloat_large {n : Nat} (low : 2 ^ 63 ≤ n) (high : n < 2 ^ 64) (i : Int64) :
    (compareIntFloat i (.ofNat n) == some .eq) = false := by
  obtain ⟨m, e, parts, mantissa, exponent⟩ := parts_ofNat low high
  have scale : 2 ^ 11 ≤ powTwo e.toNat := Nat.pow_le_pow_right (by decide) (by omega)
  have value : floorOf (.ofNat n) = (m * powTwo e.toNat : Nat) := by
    simp [floorOf, parts, show 0 ≤ e by omega]
  have floor : (2 : Int) ^ 63 ≤ floorOf (.ofNat n) := by
    rw [value]
    exact_mod_cast Nat.mul_le_mul mantissa scale
  have below : i.toInt < floorOf (.ofNat n) := by
    have := i.toInt_lt
    omega
  unfold compareIntFloat
  split
  · rfl
  · split
    · split <;> rfl
    · simp [below]

theorem same_integers {a b : Int} (low : -2 ^ 63 ≤ a ∧ -2 ^ 63 ≤ b)
    (high : a < 2 ^ 64 ∧ b < 2 ^ 64) :
    (Value.ofNumber (.integer a)).same (.ofNumber (.integer b)) = true ↔
      a = b ∨ 2 ^ 63 ≤ a ∧ 2 ^ 63 ≤ b ∧
        roundHalfEven a.toNat 2048 = roundHalfEven b.toNat 2048 := by
  rcases Int.lt_or_le a (2 ^ 63) with small | large
  · rw [ofNumber_small low.1 small]
    rcases Int.lt_or_le b (2 ^ 63) with small' | large'
    · have apart : ¬ 2 ^ 63 ≤ a := by omega
      rw [ofNumber_small low.2 small']
      simp only [Value.same, beq_iff_eq, apart, false_and, or_false]
      constructor
      · intro same
        have equal := congrArg Int64.toInt same
        rwa [Int64.toInt_ofInt_of_le low.1 small, Int64.toInt_ofInt_of_le low.2 small'] at equal
      · rintro rfl
        rfl
    · obtain ⟨k, rfl⟩ := Int.eq_ofNat_of_zero_le (show 0 ≤ b by omega)
      rw [ofNumber_large (by omega), Value.same, compareIntFloat_large (by omega) (by omega)]
      simp
      omega
  · obtain ⟨n, rfl⟩ := Int.eq_ofNat_of_zero_le (show 0 ≤ a by omega)
    rw [ofNumber_large (by omega)]
    rcases Int.lt_or_le b (2 ^ 63) with small' | large'
    · rw [ofNumber_small low.2 small', Value.same, compareIntFloat_large (by omega) (by omega)]
      simp
      omega
    · obtain ⟨k, rfl⟩ := Int.eq_ofNat_of_zero_le (show 0 ≤ b by omega)
      rw [ofNumber_large (by omega), Value.same,
        ofNat_beq_iff (by omega) (by omega) (by omega) (by omega)]
      constructor
      · exact fun alike => .inr ⟨large, large', alike⟩
      · rintro (same | ⟨-, -, alike⟩)
        · rw [Int.ofNat.inj same]
        · exact alike

end CallGuard.Lua
