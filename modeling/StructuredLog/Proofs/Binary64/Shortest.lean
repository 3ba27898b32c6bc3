import StructuredLog.Proofs.Binary64.Nearest

/-!
The shortest decimal of a finite number is read as the number again. All that lies between the two
points halfway to its neighbours rounds to a number, and a decimal of seventeen digits always comes
to lie there.
-/

namespace StructuredLog.Binary64

open Decimal

/-- A number lies between the ends of a neighbourhood, or on one of them if they count. -/
structure Neighbourhood.Holds (n : Neighbourhood) (v : ℚ) : Prop where
  lower : n.low * n.quarter.value ≤ v
  upper : v ≤ n.high * n.quarter.value
  inside : n.closed = false → n.low * n.quarter.value < v ∧ v < n.high * n.quarter.value

section Rounding

variable {x : Binary64} {v : ℚ}

theorem significand_pos (nonzero : x.isZero = false) : 0 < x.significand :=
  Nat.pos_of_ne_zero (of_decide_eq_false nonzero)

theorem exponent_le (finite : x.isFinite = true) : x.exponent ≤ 971 := by
  have field : x.exponentField ≠ 2047 := of_decide_eq_true finite
  have less : x.exponentField < 2048 := Nat.mod_lt _ (by decide)
  unfold exponent
  omega

theorem quarter_value (x : Binary64) :
    x.neighbourhood.quarter.value = 2 ^ x.exponent / 4 := by
  have unit : (2 : ℚ) ^ (x.exponent - 2) = 2 ^ x.exponent / 4 := by
    rw [zpow_sub₀ two_ne_zero]
    norm_num
  rw [neighbourhood, Quotient.value_scale2, unit, Quotient.value]
  norm_num

theorem high_value (x : Binary64) : (x.neighbourhood.high : ℚ) = 4 * x.significand + 2 := by
  unfold neighbourhood
  push_cast
  rfl

/-- The lower end is two quarters of a unit away, and one quarter at most at a power of two. -/
theorem low_units (nonzero : x.isZero = false) :
    4 * x.significand ≤ x.neighbourhood.low + 2 ∧ x.neighbourhood.low + 1 ≤ 4 * x.significand ∧
      (2 ^ 52 < x.significand → x.neighbourhood.low + 2 = 4 * x.significand) := by
  have some := significand_pos nonzero
  have fields : x.significand ≤ 2 ^ 52 ∨ ¬(x.fractionField = 0 ∧ 1 < x.exponentField) := by
    unfold significand exponentUnit
    split <;> omega
  unfold neighbourhood
  simp only
  split <;> omega

theorem low_bounds (nonzero : x.isZero = false) :
    (4 * x.significand - 2 : ℚ) ≤ x.neighbourhood.low ∧
      (x.neighbourhood.low : ℚ) ≤ 4 * x.significand - 1 ∧
      (2 ^ 52 < x.significand → (x.neighbourhood.low : ℚ) = 4 * x.significand - 2) := by
  obtain ⟨least, most, normal⟩ := low_units nonzero
  refine ⟨?_, ?_, fun above => ?_⟩
  · rw [sub_le_iff_le_add]
    exact_mod_cast least
  · rw [le_sub_iff_add_le]
    exact_mod_cast most
  · rw [eq_sub_iff_add_eq]
    exact_mod_cast normal above

/-- Half a unit of the last bit on both sides. -/
structure Around (x : Binary64) (v : ℚ) : Prop where
  lower : (x.significand - 1 / 2) * 2 ^ x.exponent ≤ v
  upper : v ≤ (x.significand + 1 / 2) * 2 ^ x.exponent
  inside : x.significand % 2 ≠ 0 → (x.significand - 1 / 2) * 2 ^ x.exponent < v ∧
    v < (x.significand + 1 / 2) * 2 ^ x.exponent

theorem Neighbourhood.Holds.around (nonzero : x.isZero = false)
    (holds : x.neighbourhood.Holds v) : x.Around v := by
  have unit : (0 : ℚ) < 2 ^ x.exponent := by positivity
  obtain ⟨lower, upper, inside⟩ := holds
  rw [quarter_value] at lower upper inside
  rw [high_value] at upper inside
  have left := mul_le_mul_of_nonneg_right (low_bounds nonzero).1 unit.le
  refine ⟨by linarith, by linarith, fun odd => ?_⟩
  have opened := inside (beq_false_of_ne odd)
  exact ⟨by linarith [opened.1], by linarith [opened.2]⟩

theorem Around.lt_overflow (finite : x.isFinite = true) (around : x.Around v) : v < overflow := by
  have unit : (0 : ℚ) < 2 ^ x.exponent := by positivity
  have scale : (2 : ℚ) ^ x.exponent ≤ 2 ^ (971 : Int) :=
    zpow_le_zpow_right₀ one_le_two (exponent_le finite)
  have bits := x.fits.bits
  rw [overflow]
  by_cases odd : x.significand % 2 ≠ 0
  · have most : (x.significand : ℚ) + 1 ≤ 2 ^ 53 := by exact_mod_cast bits
    calc v < (x.significand + 1 / 2) * 2 ^ x.exponent := (around.inside odd).2
      _ ≤ (2 ^ 53 - 1 / 2) * 2 ^ (971 : Int) :=
        mul_le_mul (by linarith) scale unit.le (by norm_num)
  · have most : (x.significand : ℚ) + 2 ≤ 2 ^ 53 := by
      have even : x.significand + 2 ≤ 2 ^ 53 := by omega
      exact_mod_cast even
    calc v ≤ (x.significand + 1 / 2) * 2 ^ x.exponent := around.upper
      _ < (2 ^ 53 - 1 / 2) * 2 ^ x.exponent := mul_lt_mul_of_pos_right (by linarith) unit
      _ ≤ (2 ^ 53 - 1 / 2) * 2 ^ (971 : Int) := mul_le_mul_of_nonneg_left scale (by norm_num)

theorem Around.nearest (around : x.Around v) : NearestEven (v / 2 ^ x.exponent) x.significand := by
  have unit : (0 : ℚ) < 2 ^ x.exponent := by positivity
  have lower := (le_div_iff₀ unit).mpr around.lower
  have upper := (div_le_iff₀ unit).mpr around.upper
  refine ⟨abs_le.mpr ⟨by linarith, by linarith⟩, fun half => ?_⟩
  by_contra odd
  obtain ⟨left, right⟩ := around.inside odd
  have left := (lt_div_iff₀ unit).mpr left
  have right := (div_lt_iff₀ unit).mpr right
  have less : |v / 2 ^ x.exponent - x.significand| < 1 / 2 :=
    abs_lt.mpr ⟨by linarith, by linarith⟩
  exact less.ne half

/-- Just below a power of two the numbers lie twice as dense. What rounds to the power from there is
two to the 53 of the units that they have. -/
theorem Neighbourhood.Holds.units_under_power (finite : x.isFinite = true)
    (nonzero : x.isZero = false) (holds : x.neighbourhood.Holds v) (more : -1074 < x.exponent)
    (less : v < 2 ^ (x.exponent + 52)) :
    LastBit v (x.exponent - 1) ∧ NearestEven (v / 2 ^ (x.exponent - 1)) (2 ^ 53) ∧
      |x.value| = (2 ^ 53 : Nat) * 2 ^ (x.exponent - 1) := by
  have scale : (0 : ℚ) < 2 ^ x.exponent := by positivity
  have unit : (0 : ℚ) < 2 ^ (x.exponent - 1) := by positivity
  have half : (2 : ℚ) ^ (x.exponent - 1) = 2 ^ x.exponent / 2 := by
    rw [zpow_sub₀ two_ne_zero, zpow_one]
  have bottom : (2 : ℚ) ^ (x.exponent + 52) = 2 ^ 52 * 2 ^ x.exponent := by
    rw [add_comm, zpow_add₀ two_ne_zero]
    rfl
  have power : x.significand = 2 ^ 52 := by
    have close : (x.significand : ℚ) - 1 / 2 < 2 ^ 52 := by
      rw [bottom] at less
      exact (mul_lt_mul_iff_left₀ scale).mp ((holds.around nonzero).lower.trans_lt less)
    have most : (x.significand : ℚ) < (2 ^ 52 + 1 : Nat) := by
      push_cast
      linarith
    have counted := Nat.cast_lt.mp most
    have used := x.fits.used more
    omega
  have fields : x.fractionField = 0 ∧ 1 < x.exponentField := by
    unfold significand exponentUnit at power
    unfold exponent at more
    split at power <;> omega
  have near : (2 ^ 53 - 1 / 2) * 2 ^ (x.exponent - 1) ≤ v := by
    have low : x.neighbourhood.low = 2 ^ 54 - 1 := by
      unfold neighbourhood
      rw [if_pos fields, power]
      rfl
    have lower := holds.lower
    rw [quarter_value, low] at lower
    push_cast at lower
    rw [half]
    linarith
  have below : v < 2 ^ 53 * 2 ^ (x.exponent - 1) := by
    rw [bottom] at less
    rw [half]
    linarith
  have most := exponent_le finite
  refine ⟨⟨by omega, by omega, fun _ => ?_, ?_⟩, ⟨?_, fun _ => rfl⟩, ?_⟩
  · rw [add_comm, zpow_add₀ two_ne_zero]
    refine le_trans (mul_le_mul_of_nonneg_right ?_ unit.le) near
    norm_num
  · have place : x.exponent - 1 + 53 = x.exponent + 52 := by omega
    rw [place]
    exact less
  · have closeBelow := (le_div_iff₀ unit).mpr near
    have closeAbove := (div_lt_iff₀ unit).mpr below
    push_cast
    exact abs_le.mpr ⟨by linarith, by linarith⟩
  · rw [abs_value, value_magnitude, power, half]
    push_cast
    ring

/-- What lies in the neighbourhood of a number is the number, to the nearest unit of a last bit. -/
theorem Neighbourhood.Holds.units (finite : x.isFinite = true) (nonzero : x.isZero = false)
    (holds : x.neighbourhood.Holds v) :
    ∃ (unit : Int) (n : Nat), LastBit v unit ∧ NearestEven (v / 2 ^ unit) n ∧
      |x.value| = n * 2 ^ unit := by
  by_cases large : -1074 < x.exponent → 2 ^ (x.exponent + 52) ≤ v
  · have around := holds.around nonzero
    have scale : (0 : ℚ) < 2 ^ x.exponent := by positivity
    have bits : (x.significand : ℚ) + 1 ≤ 2 ^ 53 := by exact_mod_cast x.fits.bits
    have small : v < 2 ^ (x.exponent + 53) := by
      rw [add_comm, zpow_add₀ two_ne_zero]
      exact around.upper.trans_lt (mul_lt_mul_of_pos_right (by linarith) scale)
    refine ⟨x.exponent, x.significand, ⟨x.fits.least, exponent_le finite, large, small⟩,
      around.nearest, ?_⟩
    rw [abs_value, value_magnitude]
  · obtain ⟨more, less⟩ := Classical.not_imp.mp large
    exact ⟨x.exponent - 1, 2 ^ 53,
      holds.units_under_power finite nonzero more (lt_of_not_ge less)⟩

theorem ofQuotient_holds (finite : x.isFinite = true) (nonzero : x.isZero = false) {q : Quotient}
    (positive : q.Positive) (holds : x.neighbourhood.Holds q.value) :
    ofQuotient x.isNegative q = x := by
  have below := (holds.around nonzero).lt_overflow finite
  obtain ⟨unit, n, bit, units, worth⟩ := holds.units finite nonzero
  obtain ⟨-, sign, same⟩ := ofMagnitudeBits_units x.isNegative bit units below
  rw [ofQuotient_units positive x.isNegative below bit units]
  exact eq_of_value sign (same.trans worth.symm)

end Rounding

structure Neighbourhood.Encloses (n : Neighbourhood) : Prop where
  low : n.low < n.value
  high : n.value < n.high
  quarter : n.quarter.Positive

theorem neighbourhood_encloses {x : Binary64} (nonzero : x.isZero = false) :
    x.neighbourhood.Encloses where
  low := (low_units nonzero).2.1
  high := Nat.lt_add_of_pos_right (by decide)
  quarter := Quotient.Positive.scale2 ⟨Nat.one_pos, Nat.one_pos⟩ _

/-- The comparisons of whole numbers that say where a decimal lies. -/
theorem Neighbourhood.Encloses.holds {n : Neighbourhood} (encloses : n.Encloses) {power : Int}
    {units : Nat}
    (least : (if n.closed then n.low * (n.quarter.shift (-power)).num
      else n.low * (n.quarter.shift (-power)).num + 1) ≤ units * (n.quarter.shift (-power)).den)
    (most : units * (n.quarter.shift (-power)).den ≤
      if n.closed then n.high * (n.quarter.shift (-power)).num
      else n.high * (n.quarter.shift (-power)).num - 1) :
    n.Holds (Scaled.mk units power).value := by
  have grid := encloses.quarter.shift (-power)
  have worth := n.quarter.value_shift (-power)
  rw [zpow_neg, ← div_eq_mul_inv] at worth
  generalize n.quarter.shift (-power) = q at least most grid worth
  have unit : (0 : ℚ) < 10 ^ power := by positivity
  have den : (0 : ℚ) < q.den := Nat.cast_pos.mpr grid.den
  have top : 0 < n.high * q.num := Nat.mul_pos (Nat.zero_lt_of_lt encloses.high) grid.num
  have scaled : ∀ k : Nat, k * n.quarter.value = k * q.num / q.den * 10 ^ power := by
    intro k
    rw [mul_div_assoc, ← Quotient.value, worth]
    field_simp
  refine ⟨?_, ?_, fun opened => ⟨?_, ?_⟩⟩
  · rw [scaled, Scaled.value]
    refine mul_le_mul_of_nonneg_right ((div_le_iff₀ den).mpr ?_) unit.le
    have reached : n.low * q.num ≤ units * q.den := by split at least <;> omega
    exact_mod_cast reached
  · rw [scaled, Scaled.value]
    refine mul_le_mul_of_nonneg_right ((le_div_iff₀ den).mpr ?_) unit.le
    have reached : units * q.den ≤ n.high * q.num := by split at most <;> omega
    exact_mod_cast reached
  · rw [scaled, Scaled.value]
    refine mul_lt_mul_of_pos_right ((div_lt_iff₀ den).mpr ?_) unit
    rw [opened, if_neg Bool.false_ne_true] at least
    exact_mod_cast least
  · rw [scaled, Scaled.value]
    refine mul_lt_mul_of_pos_right ((lt_div_iff₀ den).mpr ?_) unit
    rw [opened, if_neg Bool.false_ne_true] at most
    have reached : units * q.den < n.high * q.num := by omega
    exact_mod_cast reached

theorem roundDiv_cases (num den : Nat) :
    roundDiv num den = num / den ∨ roundDiv num den = num / den + 1 := by
  unfold roundDiv
  simp only
  split
  · exact .inl rfl
  · split
    · exact .inr rfl
    · omega

theorem Neighbourhood.withDigits_holds {n : Neighbourhood} (encloses : n.Encloses) {leading : Int}
    {count : Nat} {decimal : Scaled} (found : n.withDigits leading count = some decimal) :
    n.Holds decimal.value := by
  simp only [withDigits, Bool.and_eq_true, decide_eq_true_eq] at found
  generalize leading - ((count - 1 : Nat) : Int) = power at found
  have holds := fun units => @Neighbourhood.Encloses.holds n encloses power units
  have grid := encloses.quarter.shift (-power)
  generalize n.quarter.shift (-power) = q at found holds grid
  have low := Nat.mul_lt_mul_of_pos_right encloses.low grid.num
  have high := Nat.mul_lt_mul_of_pos_right encloses.high grid.num
  have floor := Nat.div_mul_le_self (n.value * q.num) q.den
  have next := (Nat.div_lt_iff_lt_mul grid.den).mp (Nat.lt_add_one (n.value * q.num / q.den))
  -- The neighbour below is not past the upper end, and the one above not past the lower end.
  have under : n.value * q.num / q.den * q.den ≤
      if n.closed then n.high * q.num else n.high * q.num - 1 := by
    split <;> omega
  have past : (if n.closed then n.low * q.num else n.low * q.num + 1) ≤
      (n.value * q.num / q.den + 1) * q.den := by
    split <;> omega
  generalize (if n.closed then n.low * q.num else n.low * q.num + 1) = least at *
  generalize (if n.closed then n.high * q.num else n.high * q.num - 1) = most at *
  split at found
  · next both =>
    cases found
    rcases roundDiv_cases (n.value * q.num) q.den with same | same
    · rw [same]
      exact holds _ both.1 under
    · rw [same]
      exact holds _ past both.2
  · split at found
    · next below =>
      cases found
      exact holds _ below under
    · split at found
      · next above =>
        cases found
        exact holds _ past above
      · cases found

/-- Half a unit of the seventeenth digit is less than half the way to either neighbour. -/
theorem significant_holds {x : Binary64} (nonzero : x.isZero = false) :
    x.neighbourhood.Holds (x.magnitude.significant 17).value := by
  have rounds : (x.magnitude.significant 17).Rounds 17 x.magnitude.value :=
    x.magnitude.significant_rounds (magnitude_positive nonzero) (by decide)
  obtain ⟨left, right⟩ := abs_le.mp rounds.error
  have large : 10 ^ 16 * 10 ^ (x.magnitude.significant 17).power ≤ x.magnitude.value :=
    rounds.lower (by decide)
  rw [value_magnitude] at left right large
  have scale : (0 : ℚ) < 2 ^ x.exponent := by positivity
  have bits : (x.significand : ℚ) < 2 ^ 53 := by exact_mod_cast x.fits.bits
  have size := mul_lt_mul_of_pos_right bits scale
  have above : (x.neighbourhood.low : ℚ) * (2 ^ x.exponent / 4) <
      (x.magnitude.significant 17).value := by
    obtain ⟨-, low, full⟩ := low_bounds nonzero
    rcases lt_or_ge (2 ^ 52) x.significand with normal | few
    · rw [full normal]
      linarith
    · have most : (x.significand : ℚ) ≤ 2 ^ 52 := by exact_mod_cast few
      have least := mul_le_mul_of_nonneg_right low scale.le
      have half := mul_le_mul_of_nonneg_right most scale.le
      linarith
  have below : (x.magnitude.significant 17).value <
      x.neighbourhood.high * (2 ^ x.exponent / 4) := by
    rw [high_value]
    linarith
  rw [← quarter_value] at above below
  exact ⟨above.le, below.le, fun _ => ⟨above, below⟩⟩

theorem shortest_holds {x : Binary64} (nonzero : x.isZero = false) :
    x.neighbourhood.Holds (shortest x).value := by
  unfold shortest
  simp only
  split
  · next decimal found =>
    obtain ⟨count, -, reads⟩ := List.exists_of_findSome?_eq_some found
    exact Neighbourhood.withDigits_holds (neighbourhood_encloses nonzero) reads
  · exact significant_holds nonzero

section Reading

variable {x : Binary64}

theorem Neighbourhood.Holds.large {v : ℚ} (nonzero : x.isZero = false)
    (holds : x.neighbourhood.Holds v) : 2 ^ (-1200 : Int) < v := by
  have some : (1 : ℚ) ≤ x.significand := by exact_mod_cast significand_pos nonzero
  have scale : (0 : ℚ) < 2 ^ x.exponent := by positivity
  have least : (2 : ℚ) ^ (-1074 : Int) ≤ 2 ^ x.exponent :=
    zpow_le_zpow_right₀ one_le_two x.fits.least
  have power : (2 : ℚ) ^ (-1200 : Int) < 2 ^ (-1074 : Int) / 2 := by
    rw [div_eq_mul_inv, ← zpow_sub_one₀ two_ne_zero]
    exact zpow_lt_zpow_right₀ one_lt_two (by decide)
  have half := mul_le_mul_of_nonneg_right some scale.le
  linarith [(holds.around nonzero).lower]

theorem ofScaled_holds (finite : x.isFinite = true) (nonzero : x.isZero = false) {s : Scaled}
    (holds : x.neighbourhood.Holds s.value) : ofScaled x.isNegative s = x := by
  have large := holds.large nonzero
  have power : (0 : ℚ) < 2 ^ (-1200 : Int) := by positivity
  have some : 0 < s.units := by
    refine Nat.pos_of_ne_zero fun none => ?_
    rw [Scaled.value, none, Nat.cast_zero, zero_mul] at large
    exact absurd large power.not_gt
  have below := (holds.around nonzero).lt_overflow finite
  have above : ¬s.leading < -400 := fun far => absurd large (value_le_of_leading some far).not_gt
  unfold ofScaled
  rw [if_neg some.ne', if_neg (leading_le some below).not_gt, if_neg above]
  rw [← value_quotient] at holds
  exact ofQuotient_holds finite nonzero (quotient_positive some) holds

theorem shortest_pos (nonzero : x.isZero = false) : 0 < (shortest x).units := by
  refine Nat.pos_of_ne_zero fun none => ?_
  have large := (shortest_holds nonzero).large nonzero
  rw [Scaled.value, none, Nat.cast_zero, zero_mul] at large
  have power : (0 : ℚ) < 2 ^ (-1200 : Int) := by positivity
  exact absurd large power.not_gt

theorem eq_zero (zeroes : x.isZero = true) : zero x.isNegative = x := by
  have below : 0 < 2047 * exponentUnit := by decide
  obtain ⟨-, none⟩ := ofMagnitudeBits_value x.isNegative (k := 0) (m := 0) (by decide)
    (fun more => absurd more (by decide)) below
  refine eq_of_value (ofMagnitudeBits_fields x.isNegative below).1 ?_
  rw [value_eq_zero.mpr zeroes, abs_zero, ← zero_mul (2 ^ ((0 : Nat) - 1074 : Int)), ← Nat.cast_zero]
  exact none

/-- The shortest decimal of a finite number, however it is laid out, is read as the number. -/
theorem ofLiteral?_signedText (layout : Layout) (finite : x.isFinite = true) :
    ofLiteral? (x.signedText layout shortest) = some x := by
  obtain ⟨s, worth, reads⟩ := ofLiteral?_spells
    (signedText_spells layout shortest x shortest_pos)
  rw [reads]
  cases zeroes : x.isZero with
  | true =>
    rw [zeroes, if_pos rfl] at worth
    have none : s.units = 0 := by
      by_contra some
      exact (Scaled.value_pos (Nat.pos_of_ne_zero some)).ne' worth
    rw [ofScaled, if_pos none, eq_zero zeroes]
  | false =>
    rw [zeroes, if_neg Bool.false_ne_true] at worth
    have holds := shortest_holds zeroes
    rw [← worth] at holds
    rw [ofScaled_holds finite zeroes holds]

end Reading

end StructuredLog.Binary64
