import CallGuard.Decimal.Double
import Mathlib

set_option autoImplicit false

namespace CallGuard.Decimal

open Float.Model Float.Model.UnpackedFloat

theorem roundHalfEven_scale {scale : Nat} (positive : 0 < scale) (num den : Nat) :
    roundHalfEven (num * scale) (den * scale) = roundHalfEven num den := by
  have less (a b : Nat) : 2 * (a * scale) < b * scale ↔ 2 * a < b := by
    rw [← Nat.mul_assoc]
    exact Nat.mul_lt_mul_right positive
  have more (a b : Nat) : b * scale < 2 * (a * scale) ↔ b < 2 * a := by
    rw [← Nat.mul_assoc]
    exact Nat.mul_lt_mul_right positive
  simp only [roundHalfEven, Nat.mul_div_mul_right _ _ positive, Nat.mul_mod_mul_right, less, more]

theorem roundHalfEven_between {num den low high : Nat} (positive : 0 < den)
    (above : low * den ≤ num) (below : num < high * den) :
    low ≤ roundHalfEven num den ∧ roundHalfEven num den ≤ high := by
  have first := (Nat.le_div_iff_mul_le positive).2 above
  have last := (Nat.div_lt_iff_lt_mul positive).2 below
  unfold roundHalfEven
  dsimp only
  split
  · omega
  · split
    · omega
    · split <;> omega

theorem shiftRight_exact (m k : Nat) :
    (ExtendedMantissa.mk m false false) >>> (k + 1) =
      ⟨m / 2 ^ (k + 1), m / 2 ^ k % 2 != 0, m % 2 ^ k != 0⟩ := by
  show Nat.repeat ExtendedMantissa.shiftRightOne (k + 1) _ = _
  induction k with
  | zero => simp [Nat.repeat, ExtendedMantissa.shiftRightOne, Nat.mod_one]
  | succ k ih =>
    have sticky : (m / 2 ^ k % 2 != 0 || m % 2 ^ k != 0) = (m % 2 ^ (k + 1) != 0) := by
      have positive := Nat.two_pow_pos k
      rcases Nat.mod_two_eq_zero_or_one (m / 2 ^ k) with bit | bit <;>
        simp [Nat.mod_pow_succ, bit]
    rw [Nat.repeat, ih, ExtendedMantissa.shiftRightOne, sticky, Nat.div_div_eq_div_mul,
      ← Nat.pow_succ]

theorem roundedMantissa_exact (m k : Nat) :
    ((ExtendedMantissa.mk m false false) >>> (k + 1)).roundedMantissa =
      roundHalfEven m (2 ^ (k + 1)) := by
  have split : m % 2 ^ (k + 1) = m % 2 ^ k + 2 ^ k * (m / 2 ^ k % 2) := Nat.mod_pow_succ
  have low : m % 2 ^ k < 2 ^ k := Nat.mod_lt _ (Nat.two_pow_pos k)
  have double : 2 ^ (k + 1) = 2 * 2 ^ k := by rw [Nat.pow_succ, Nat.mul_comm]
  rw [shiftRight_exact]
  unfold roundHalfEven
  rw [split, double]
  rcases Nat.mod_two_eq_zero_or_one (m / 2 ^ k) with bit | bit
  · have below : 2 * (m % 2 ^ k) < 2 * 2 ^ k := by omega
    cases sticky : m % 2 ^ k != 0 <;>
      simp [ExtendedMantissa.roundedMantissa, ExtendedMantissa.accuracy,
        Accuracy.roundToNearestEven, bit, below]
  · have above : ¬ 2 * (m % 2 ^ k + 2 ^ k) < 2 * 2 ^ k := by omega
    cases sticky : m % 2 ^ k != 0 with
    | false =>
      have exact : m % 2 ^ k = 0 := by simpa using sticky
      rcases Nat.mod_two_eq_zero_or_one (m / (2 * 2 ^ k)) with even | odd
      · simp [ExtendedMantissa.roundedMantissa, ExtendedMantissa.accuracy,
          Accuracy.roundToNearestEven, bit, exact, even]
      · simp [ExtendedMantissa.roundedMantissa, ExtendedMantissa.accuracy,
          Accuracy.roundToNearestEven, bit, exact, odd]
    | true =>
      have rest : m % 2 ^ k ≠ 0 := by simpa using sticky
      have more : 2 * 2 ^ k < 2 * (m % 2 ^ k + 2 ^ k) := by omega
      simp [ExtendedMantissa.roundedMantissa, ExtendedMantissa.accuracy,
        Accuracy.roundToNearestEven, bit, above, more]

theorem shiftToTargetExponent_eq {m : Nat} {e : Int} (target : Int)
    (total : (m.log2 : Int) + 1 + e = target + 53) (least : -1074 ≤ target) :
    shiftToTargetExponent .binary64 m e .exact =
      ((ExtendedMantissa.mk m false false) >>> (target - e).toNat, e + (target - e).toNat) := by
  have goal : Format.binary64.targetExponent (totalExponent m e) = target := by
    simp [Format.targetExponent, totalExponent, Format.mantissaBits, Format.minExponent]
    omega
  simp only [shiftToTargetExponent, shiftToExponent, goal]
  rfl

theorem roundWithAccuracy_eq {n q : Nat} (low : 2 ^ 63 ≤ n) (high : n < 2 ^ 64)
    (nearest : roundHalfEven n 2048 = q) :
    (q < 2 ^ 53 ∧ ∃ positive, roundWithAccuracy .binary64 .positive (n * 2 ^ 53) (-53) .exact =
        .finite .positive q 11 positive) ∨
      (q = 2 ^ 53 ∧ ∃ positive, roundWithAccuracy .binary64 .positive (n * 2 ^ 53) (-53) .exact =
        .finite .positive (2 ^ 52) 12 positive) := by
  have range : 2 ^ 52 ≤ q ∧ q ≤ 2 ^ 53 := by
    rw [← nearest]
    exact roundHalfEven_between (by decide) (by omega) (by omega)
  have size : (n * 2 ^ 53).log2 = 116 := (Nat.log2_eq_iff (by omega)).2 ⟨by omega, by omega⟩
  have first := shiftToTargetExponent_eq (m := n * 2 ^ 53) (e := -53) 11 (by omega)
    (by decide)
  have rounded : ((ExtendedMantissa.mk (n * 2 ^ 53) false false) >>> (64 : Nat)).roundedMantissa =
      q := by
    rw [roundedMantissa_exact _ 63, ← nearest]
    exact roundHalfEven_scale (by decide) n 2048
  -- the mantissa is shifted once to the places that a double has, and again if it got too long
  have again : roundWithAccuracy .binary64 .positive (n * 2 ^ 53) (-53) .exact =
      if h : (shiftToTargetExponent .binary64 q 11 .exact).1.mantissa = 0 then .zero .positive
      else .finite .positive (shiftToTargetExponent .binary64 q 11 .exact).1.mantissa
        (shiftToTargetExponent .binary64 q 11 .exact).2 (Nat.pos_of_ne_zero h) := by
    have amount : ((11 : Int) - -53).toNat = 64 := rfl
    simp only [roundWithAccuracy, first, amount, rounded]
    rfl
  by_cases short : q < 2 ^ 53
  · have log : q.log2 = 52 := (Nat.log2_eq_iff (by omega)).2 ⟨range.1, short⟩
    have second : shiftToTargetExponent .binary64 q 11 .exact = (⟨q, false, false⟩, 11) :=
      shiftToTargetExponent_eq 11 (by omega) (by decide)
    have positive : 0 < q := by omega
    refine .inl ⟨short, positive, ?_⟩
    simp only [again, second]
    exact dif_neg (Nat.ne_of_gt positive)
  · obtain rfl : q = 2 ^ 53 := by omega
    have second : shiftToTargetExponent .binary64 (2 ^ 53) 11 .exact =
        (⟨2 ^ 52, false, false⟩, 12) :=
      shiftToTargetExponent_eq 12 (by decide) (by decide)
    refine .inr ⟨rfl, by decide, ?_⟩
    simp only [again, second]
    rfl

theorem ofNat_eq {n : Nat} (low : 2 ^ 63 ≤ n) :
    Float.ofNat n =
      ⟨Float.Model.pack (roundWithAccuracy .binary64 .positive (n * 2 ^ 53) (-53) .exact)⟩ := by
  have large : ¬ (n < 2 ^ 53 ∧ 0 ≤ 22) := by omega
  have positive : n ≠ 0 := by omega
  have smallest : ¬ (0 : Int) < -(2 ^ Format.binary64.exponentBits + n.log2) := by
    simp
  show Float.ofScientific n false 0 = _
  rw [Float.ofScientific, dif_neg large]
  have whole : UnpackedFloat.ofScientific .binary64 n 0 =
      roundWithAccuracy .binary64 .positive (n <<< 53 * 10 ^ 0) (-53 + 0) .exact := by
    rw [UnpackedFloat.ofScientific, dif_neg positive, if_neg (by decide), if_neg smallest,
      if_pos (by decide)]
    rfl
  rw [Nat.shiftLeft_eq, Nat.pow_zero, Nat.mul_one, Int.add_zero] at whole
  rw [← whole]
  rfl

theorem toNat_append {m k : Nat} (x : BitVec m) (y : BitVec k) :
    (x ++ y).toNat = x.toNat * 2 ^ k + y.toNat := by
  rw [BitVec.toNat_append, ← Nat.shiftLeft_add_eq_or_of_lt y.isLt, Nat.shiftLeft_eq]

theorem toBits_pack {q : Nat} {e : Int} (positive : 0 < q) (normal : q.log2 = 52)
    (least : 0 ≤ e) (most : e < 64) :
    (Float.Model.pack (.finite .positive q e positive)).toBits.toNat =
      (e + 1074).toNat * 2 ^ 52 + q := by
  have range := (Nat.log2_eq_iff (Nat.ne_of_gt positive)).1 normal
  have field : (e + 1023 + 52).toNat = (e + 1074).toNat + 1 := by omega
  have bits : (Float.Model.pack (.finite .positive q e positive)).toBits.toBitVec =
      packComponents .binary64 .positive (.ofNat 11 ((e + 1074).toNat + 1)) (.ofNat 52 q) := by
    show UnpackedFloat.pack .binary64 (.finite .positive q e positive) = _
    rw [UnpackedFloat.pack]
    simp only [normal, Format.exponentBias, Format.mantissaBits]
    rw [if_neg, if_pos trivial]
    · exact congrArg (fun n => packComponents .binary64 .positive (.ofNat 11 n) (.ofNat 52 q)) field
    · show ¬ 2 ^ 11 ≤ (e + 1023 + 52).toNat + 1
      omega
  show (Float.Model.pack (.finite .positive q e positive)).toBits.toBitVec.toNat = _
  rw [bits]
  show ((0#1 ++ BitVec.ofNat 11 _) ++ BitVec.ofNat 52 _).toNat = _
  rw [toNat_append, toNat_append, BitVec.toNat_ofNat, BitVec.toNat_ofNat, BitVec.toNat_ofNat]
  omega

theorem toBits_ofNat {n : Nat} (low : 2 ^ 63 ≤ n) (high : n < 2 ^ 64) :
    (Float.ofNat n).toBits.toNat = 1085 * 2 ^ 52 + roundHalfEven n 2048 := by
  rw [ofNat_eq low]
  show (Float.Model.pack _).toBits.toNat = _
  have range : 2 ^ 52 ≤ roundHalfEven n 2048 ∧ roundHalfEven n 2048 ≤ 2 ^ 53 :=
    roundHalfEven_between (by decide) (by omega) (by omega)
  rcases roundWithAccuracy_eq low high rfl with
    ⟨short, positive, rounded⟩ | ⟨long, positive, rounded⟩
  · have normal := (Nat.log2_eq_iff (by omega)).2 ⟨range.1, short⟩
    rw [rounded, toBits_pack positive normal (by decide) (by decide)]
    rfl
  · have normal : (2 ^ 52 : Nat).log2 = 52 := by decide
    rw [rounded, toBits_pack positive normal (by decide) (by decide), long]
    rfl

section

variable {n : Nat} (low : 2 ^ 63 ≤ n) (high : n < 2 ^ 64)

include low high

theorem parts_ofNat :
    ∃ m e, parts (Float.ofNat n) = .finite ⟨false, m, e⟩ ∧ 2 ^ 52 ≤ m ∧ 11 ≤ e := by
  have range : 2 ^ 52 ≤ roundHalfEven n 2048 ∧ roundHalfEven n 2048 ≤ 2 ^ 53 :=
    roundHalfEven_between (by decide) (by omega) (by omega)
  unfold parts
  rw [toBits_ofNat low high]
  generalize roundHalfEven n 2048 = q at range
  have field : (1085 * 2 ^ 52 + q) / 0x10000000000000 % 0x800 = 1085 + q / 2 ^ 52 := by omega
  have sign : (1085 * 2 ^ 52 + q) / 0x8000000000000000 = 0 := by omega
  refine ⟨(1085 * 2 ^ 52 + q) % 0x10000000000000 + 0x10000000000000,
    (1085 + q / 2 ^ 52 : Nat) - 1075, ?_, by omega, by omega⟩
  unfold partsOfBits
  rw [sign, field, if_neg (by omega), if_neg (by omega)]
  rfl

theorem ofNat_beq_iff {k : Nat} (low' : 2 ^ 63 ≤ k) (high' : k < 2 ^ 64) :
    (Float.ofNat n == Float.ofNat k) = true ↔ roundHalfEven n 2048 = roundHalfEven k 2048 := by
  have ordinary {i : Nat} (low : 2 ^ 63 ≤ i) (high : i < 2 ^ 64) (b : BitVec 64)
      (special : b.toNat = 0 ∨ 0x7ff * 2 ^ 52 < b.toNat) :
      (Float.ofNat i).toModel.toBits.toBitVec ≠ b := by
    rintro rfl
    have bits := toBits_ofNat low high
    have range : 2 ^ 52 ≤ roundHalfEven i 2048 ∧ roundHalfEven i 2048 ≤ 2 ^ 53 :=
      roundHalfEven_between (by decide) (by omega) (by omega)
    have value : (Float.ofNat i).toModel.toBits.toBitVec.toNat = _ := bits
    omega
  have compared := unpack_beq_unpack_iff (Float.ofNat n).toModel.valid (Float.ofNat k).toModel.valid
    (by decide)
  have nan := ordinary low high (packedNaN .binary64) (.inr (by decide))
  have nan' := ordinary low' high' (packedNaN .binary64) (.inr (by decide))
  have zero := ordinary low high (packedZero .binary64 .positive) (.inl (by decide))
  have zero' := ordinary low' high' (packedZero .binary64 .positive) (.inl (by decide))
  simp only [nan, nan', zero, zero', ne_eq, not_false_eq_true, true_and, false_and, and_false,
    or_false] at compared
  refine compared.trans ?_
  rw [← BitVec.toNat_inj]
  have bits := toBits_ofNat low high
  have bits' := toBits_ofNat low' high'
  show (Float.ofNat n).toBits.toNat = (Float.ofNat k).toBits.toNat ↔ _
  omega

end

end CallGuard.Decimal
