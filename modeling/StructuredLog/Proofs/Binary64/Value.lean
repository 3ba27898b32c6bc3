import StructuredLog.Binary64.Basic
import StructuredLog.Proofs.Decimal.Rounding

/-!
The numbers that finite ones stand for. Two different ones lie apart by a fixed part of their size,
and a number together with its sign belongs to no other bits.
-/

namespace StructuredLog.Binary64

open Decimal

def value (x : Binary64) : ℚ :=
  (if x.isNegative then -1 else 1) * (x.significand * 2 ^ x.exponent)

theorem value_magnitude (x : Binary64) : x.magnitude.value = x.significand * 2 ^ x.exponent := by
  rw [magnitude, Quotient.value_scale2, Quotient.value, Nat.cast_one, div_one]

theorem abs_value (x : Binary64) : |x.value| = x.magnitude.value := by
  have positive : (0 : ℚ) ≤ x.significand * 2 ^ x.exponent := by positivity
  rw [value_magnitude, value]
  split
  · rw [neg_one_mul, abs_neg, abs_of_nonneg positive]
  · rw [one_mul, abs_of_nonneg positive]

theorem value_signed (x : Binary64) : x.value = (if x.isNegative then -1 else 1) * |x.value| := by
  rw [abs_value, value_magnitude, value]

theorem value_eq_zero {x : Binary64} : x.value = 0 ↔ x.isZero = true := by
  rw [← abs_eq_zero, abs_value, value_magnitude, isZero, decide_eq_true_iff]
  have unit : (2 : ℚ) ^ x.exponent ≠ 0 := by positivity
  rw [mul_eq_zero, or_iff_left unit, Nat.cast_eq_zero]

/-- A significand has 53 bits at most, and all of them are used but at the least exponent. -/
structure Fits (m : Nat) (e : Int) : Prop where
  bits : m < 2 ^ 53
  least : -1074 ≤ e
  used : -1074 < e → 2 ^ 52 ≤ m

theorem fits (x : Binary64) : Fits x.significand x.exponent := by
  have fraction : x.fractionField < exponentUnit := Nat.mod_lt _ (by decide)
  unfold exponentUnit at fraction
  refine ⟨?_, ?_, ?_⟩
  · unfold significand exponentUnit
    split <;> omega
  · unfold exponent
    omega
  · unfold exponent significand exponentUnit
    intro more
    split <;> omega

namespace Fits

variable {m n : Nat} {e f : Int}

theorem upper (own : Fits m e) : (m : ℚ) * 2 ^ e < 2 ^ (e + 53) := by
  have bits : (m : ℚ) < 2 ^ 53 := by exact_mod_cast own.bits
  rw [add_comm, zpow_add₀ two_ne_zero]
  exact mul_lt_mul_of_pos_right bits (by positivity)

theorem lower (own : Fits m e) (more : -1074 < e) : (2 : ℚ) ^ (e + 52) ≤ m * 2 ^ e := by
  have used : (2 : ℚ) ^ 52 ≤ m := by exact_mod_cast own.used more
  rw [add_comm, zpow_add₀ two_ne_zero]
  exact mul_le_mul_of_nonneg_right used (by positivity)

theorem less (own : Fits m e) (other : Fits n f) (below : e < f) :
    (m : ℚ) * 2 ^ e < n * 2 ^ f := by
  calc (m : ℚ) * 2 ^ e < 2 ^ (e + 53) := own.upper
    _ ≤ 2 ^ (f + 52) := zpow_le_zpow_right₀ one_le_two (by omega)
    _ ≤ n * 2 ^ f := other.lower (own.least.trans_lt below)

theorem unique (own : Fits m e) (other : Fits n f) (same : (m : ℚ) * 2 ^ e = n * 2 ^ f) :
    m = n ∧ e = f := by
  have notBelow : ¬e < f := fun below => (own.less other below).ne same
  have notAbove : ¬f < e := fun above => (other.less own above).ne same.symm
  obtain rfl : e = f := by omega
  have units : (m : ℚ) = n := mul_right_cancel₀ (by positivity) same
  exact ⟨Nat.cast_injective units, rfl⟩

/-- Numbers that are not the same are apart by half of the one's last bit, or by half of the one. -/
theorem apart (own : Fits m e) (other : Fits n f) (differ : (m : ℚ) * 2 ^ e ≠ n * 2 ^ f) :
    (m : ℚ) * 2 ^ e ≤ 2 ^ 54 * |(m : ℚ) * 2 ^ e - n * 2 ^ f| := by
  rcases lt_or_ge f (e - 1) with far | close
  · have small : (n : ℚ) * 2 ^ f < 2 ^ (e + 51) :=
      other.upper.trans_le (zpow_le_zpow_right₀ one_le_two (by omega))
    have large : (2 : ℚ) * 2 ^ (e + 51) ≤ m * 2 ^ e := by
      have next : (2 : ℚ) ^ (e + 52) = 2 * 2 ^ (e + 51) := by
        rw [← zpow_one_add₀ two_ne_zero]
        congr 1
        omega
      rw [← next]
      exact own.lower (other.least.trans_lt (by omega))
    have some : (0 : ℚ) < 2 ^ (e + 51) := by positivity
    have half : (m : ℚ) * 2 ^ e ≤ 2 * |(m : ℚ) * 2 ^ e - n * 2 ^ f| := by
      rw [abs_of_pos (by linarith)]
      linarith
    linarith [abs_nonneg ((m : ℚ) * 2 ^ e - n * 2 ^ f)]
  · -- Both are multiples of half the one's last bit.
    obtain ⟨k, rfl⟩ := Int.le.dest close
    have unit : (0 : ℚ) < 2 ^ (e - 1) := by positivity
    have ownUnits : (m : ℚ) * 2 ^ e = (2 * m : Int) * 2 ^ (e - 1) := by
      have double : (2 : ℚ) ^ e = 2 * 2 ^ (e - 1) := by
        rw [← zpow_one_add₀ two_ne_zero]
        congr 1
        omega
      rw [double]
      push_cast
      ring
    have otherUnits : (n : ℚ) * 2 ^ (e - 1 + k) = (n * 2 ^ k : Int) * 2 ^ (e - 1) := by
      rw [zpow_add₀ two_ne_zero, zpow_natCast]
      push_cast
      ring
    rw [ownUnits, otherUnits] at differ
    have units : (2 * m : Int) - n * 2 ^ k ≠ 0 := by
      intro same
      exact differ (congrArg (fun units : Int => (units : ℚ) * 2 ^ (e - 1)) (sub_eq_zero.mp same))
    have one : (1 : ℚ) ≤ |((2 * m - n * 2 ^ k : Int) : ℚ)| := by
      rw [← Int.cast_abs]
      exact_mod_cast Int.one_le_abs units
    have bits : (m : ℚ) < 2 ^ 53 := by exact_mod_cast own.bits
    calc (m : ℚ) * 2 ^ e = (2 * m : Int) * 2 ^ (e - 1) := ownUnits
      _ ≤ 2 ^ 54 * |((2 * m - n * 2 ^ k : Int) : ℚ)| * 2 ^ (e - 1) := by
          apply mul_le_mul_of_nonneg_right _ unit.le
          push_cast at one ⊢
          linarith
      _ = 2 ^ 54 * |(m : ℚ) * 2 ^ e - n * 2 ^ (e - 1 + k)| := by
          rw [ownUnits, otherUnits, ← sub_mul, abs_mul, abs_of_pos unit, Int.cast_sub, mul_assoc]

end Fits

/-- The greatest significand at the greatest exponent is the greatest finite number. -/
theorem abs_value_le {x : Binary64} (finite : x.isFinite = true) :
    |x.value| ≤ (2 ^ 53 - 1) * 2 ^ (971 : Int) := by
  have bits : (x.significand : ℚ) + 1 ≤ 2 ^ 53 := by exact_mod_cast x.fits.bits
  have exponent : x.exponent ≤ 971 := by
    have field : x.exponentField ≠ 2047 := of_decide_eq_true finite
    have less : x.exponentField < 2048 := Nat.mod_lt _ (by decide)
    unfold exponent
    omega
  rw [abs_value, value_magnitude]
  exact mul_le_mul (by linarith) (zpow_le_zpow_right₀ one_le_two exponent) (by positivity)
    (by norm_num)

/-- Two numbers of 53 bits lie apart by at least the part of either that 54 bits leave. -/
theorem value_apart {x y : Binary64} (differ : x.value ≠ y.value) :
    |x.value| ≤ 2 ^ 54 * |x.value - y.value| := by
  by_cases same : |x.value| = |y.value|
  · have opposite : y.value = -x.value := by
      rcases abs_eq_abs.mp same with equal | negated
      · exact absurd equal differ
      · rw [negated, neg_neg]
    rw [opposite, sub_neg_eq_add, ← two_mul, abs_mul, abs_two]
    linarith [abs_nonneg x.value]
  · have sizes := abs_abs_sub_abs_le x.value y.value
    rw [abs_value, abs_value, value_magnitude, value_magnitude] at same sizes
    rw [abs_value, value_magnitude]
    linarith [x.fits.apart y.fits same]

theorem eq_of_value {x y : Binary64} (sign : x.isNegative = y.isNegative)
    (same : |x.value| = |y.value|) : x = y := by
  rw [abs_value, abs_value, value_magnitude, value_magnitude] at same
  obtain ⟨significands, exponents⟩ := x.fits.unique y.fits same
  have signs : signUnit ≤ x.bits.toNat ↔ signUnit ≤ y.bits.toNat := decide_eq_decide.mp sign
  have fields : x.exponentField = y.exponentField ∧ x.fractionField = y.fractionField := by
    have own : x.fractionField < exponentUnit := Nat.mod_lt _ (by decide)
    have other : y.fractionField < exponentUnit := Nat.mod_lt _ (by decide)
    unfold significand at significands
    unfold exponent at exponents
    split_ifs at significands <;> omega
  have own := x.bits.toNat_lt
  have other := y.bits.toNat_lt
  rcases x with ⟨x⟩
  rcases y with ⟨y⟩
  rw [mk.injEq, ← UInt64.toNat_inj]
  simp only [exponentField, fractionField, signUnit, exponentUnit] at fields signs own other
  omega

/-- Numbers are the same when they stand for the same; of the two zeros only the sign differs. -/
theorem sameNumber_iff {x y : Binary64} (own : x.isFinite = true) (other : y.isFinite = true) :
    x.sameNumber y = true ↔ x.value = y.value := by
  rw [sameNumber, own, other]
  by_cases zeros : x.isZero = true ∧ y.isZero = true
  · have values : x.value = y.value :=
      (value_eq_zero.mpr zeros.1).trans (value_eq_zero.mpr zeros.2).symm
    simp only [zeros.1, zeros.2, Bool.and_self, ↓reduceIte, values]
  · have nonzero : ¬(x.isZero && y.isZero) = true := by rwa [Bool.and_eq_true]
    simp only [Bool.true_and, Bool.true_or, Bool.and_true, if_neg nonzero, decide_eq_true_eq]
    refine ⟨congrArg value, fun same => ?_⟩
    have sizes : |x.value| = |y.value| := congrArg abs same
    refine eq_of_value ?_ sizes
    -- Numbers of different signs stand for the same one only if both are zero.
    by_contra signs
    have nothing : |x.value| = 0 := by
      rw [value_signed x, value_signed y, ← sizes] at same
      split_ifs at same with negative below below
      · exact absurd (negative.trans below.symm) signs
      · linarith
      · linarith
      · rw [Bool.not_eq_true] at negative below
        exact absurd (negative.trans below.symm) signs
    exact zeros ⟨value_eq_zero.mp (abs_eq_zero.mp nothing),
      value_eq_zero.mp (abs_eq_zero.mp (sizes ▸ nothing))⟩

end StructuredLog.Binary64
