import StructuredLog.Proofs.Binary64.Text
import StructuredLog.Proofs.Binary64.Value

/-!
The number that a quotient, a decimal or a text is read as. It has the given sign, and no finite
number is nearer to what is read, as long as that does not round to infinity.
-/

namespace StructuredLog.Binary64

open Decimal

theorem leads_log2 {n : Nat} (positive : 0 < n) : Leads 2 n.log2 (n : ℚ) := by
  have low : 2 ^ n.log2 ≤ n := Nat.log2_self_le positive.ne'
  have high : n < 2 ^ (n.log2 + 1) := Nat.lt_log2_self
  refine ⟨?_, ?_⟩
  · rw [zpow_natCast]
    exact_mod_cast low
  · exact_mod_cast high

theorem leadingBit_leads {q : Quotient} (positive : q.Positive) :
    Leads 2 (leadingBit q) q.value := by
  have leads := (leads_log2 positive.num).div one_lt_two (leads_log2 positive.den)
  have compare := Quotient.one_le_value
    (positive.scale2 (-((q.num.log2 : Int) - q.den.log2))).den
  rw [Quotient.value_scale2] at compare
  rw [← neg_sub, ← Quotient.value] at leads
  simp only [compare] at leads
  exact leads

theorem ofMagnitudeBits_fields (negative : Bool) {rest : Nat} (below : rest < 2047 * exponentUnit) :
    (ofMagnitudeBits negative rest).isNegative = negative ∧
      (ofMagnitudeBits negative rest).exponentField = rest / exponentUnit ∧
      (ofMagnitudeBits negative rest).fractionField = rest % exponentUnit := by
  have bits : (ofMagnitudeBits negative rest).bits.toNat =
      (if negative then signUnit else 0) + rest := by
    have least : min rest (2047 * exponentUnit) = rest := Nat.min_eq_left below.le
    rw [ofMagnitudeBits, least]
    apply UInt64.toNat_ofNat_of_lt'
    unfold exponentUnit at below
    unfold signUnit UInt64.size
    split <;> omega
  have sign : signUnit ≤ (if negative then signUnit else 0) + rest ↔ negative = true := by
    unfold exponentUnit at below
    unfold signUnit
    cases negative with
    | true => simp
    | false => simp only [Bool.false_eq_true, ↓reduceIte, iff_false]; omega
  unfold isNegative exponentField fractionField
  rw [bits]
  refine ⟨?_, ?_, ?_⟩
  · rw [Bool.eq_iff_iff, decide_eq_true_iff]
    exact sign
  · unfold exponentUnit at *
    unfold signUnit
    split <;> omega
  · unfold exponentUnit at *
    unfold signUnit
    split <;> omega

/-- Bits that are a significand and an exponent, counted from the least one. A significand of one
bit more than there is room for carries into the exponent. -/
theorem ofMagnitudeBits_value (negative : Bool) {k m : Nat} (room : m ≤ 2 ^ 53)
    (used : 0 < k → 2 ^ 52 ≤ m) (below : k * exponentUnit + m < 2047 * exponentUnit) :
    (ofMagnitudeBits negative (k * exponentUnit + m)).isFinite = true ∧
      |(ofMagnitudeBits negative (k * exponentUnit + m)).value| = m * 2 ^ ((k : Int) - 1074) := by
  obtain ⟨-, exponents, fractions⟩ := ofMagnitudeBits_fields negative below
  have fields : (k * exponentUnit + m) / exponentUnit = 0 ∧
        (k * exponentUnit + m) % exponentUnit = m ∧ k = 0 ∨
      (k * exponentUnit + m) / exponentUnit = k + 1 ∧
        (k * exponentUnit + m) % exponentUnit + exponentUnit = m ∨
      (k * exponentUnit + m) / exponentUnit = k + 2 ∧
        (k * exponentUnit + m) % exponentUnit = 0 ∧ m = 2 * exponentUnit := by
    unfold exponentUnit
    omega
  have finite : (k * exponentUnit + m) / exponentUnit ≠ 2047 := by
    unfold exponentUnit at *
    omega
  rw [abs_value, value_magnitude]
  unfold isFinite significand exponent
  rw [exponents, fractions]
  refine ⟨decide_eq_true finite, ?_⟩
  rcases fields with ⟨least, fraction, rfl⟩ | ⟨normal, fraction⟩ | ⟨carried, fraction, full⟩
  · rw [least, fraction]
    rfl
  · have place : ((max (k + 1) 1 : Nat) : Int) - 1075 = k - 1074 := by omega
    rw [normal, if_neg (Nat.succ_ne_zero k), fraction, place]
  · have place : ((max (k + 2) 1 : Nat) : Int) - 1075 = 1 + (k - 1074) := by omega
    rw [carried, if_neg (Nat.succ_ne_zero _), fraction, place, zpow_one_add₀ two_ne_zero, full]
    push_cast
    ring

/-- No finite number is nearer to a number than this one, which has the given sign. -/
structure Nearest (negative : Bool) (v : ℚ) (x : Binary64) : Prop where
  finite : x.isFinite = true
  sign : x.isNegative = negative
  closest : ∀ y : Binary64, y.isFinite = true → |(v - |x.value|)| ≤ |(v - |y.value|)|

/-- A nearest multiple of the last bit is a nearest number: what is no multiple of it is too
small. -/
theorem closest_of_units {v : ℚ} {x : Binary64} {unit : Int} {n : Nat}
    (same : |x.value| = n * 2 ^ unit) (units : NearestEven (v / 2 ^ unit) n)
    (large : -1074 < unit → 2 ^ (unit + 52) ≤ v) (y : Binary64) :
    |(v - |x.value|)| ≤ |(v - |y.value|)| := by
  have some : (0 : ℚ) < 2 ^ unit := by positivity
  have multiples : ∀ k : Int, |(v - |x.value|)| ≤ |v - k * 2 ^ unit| := by
    intro k
    have scaled : ∀ w : ℚ, v - w * 2 ^ unit = (v / 2 ^ unit - w) * 2 ^ unit := by
      intro w
      rw [sub_mul, div_mul_cancel₀ _ some.ne']
    rw [same, scaled, scaled, abs_mul, abs_mul, abs_of_pos some]
    exact mul_le_mul_of_nonneg_right (units.closest k) some.le
  have fits := y.fits
  rw [abs_value y, value_magnitude]
  rcases lt_or_ge y.exponent unit with finer | coarser
  · -- Finer numbers are all below the least multiple that may be the nearest.
    have least := multiples (2 ^ 52)
    have reached := large (fits.least.trans_lt finer)
    have power : ((2 ^ 52 : Int) : ℚ) * 2 ^ unit = 2 ^ (unit + 52) := by
      rw [add_comm, zpow_add₀ two_ne_zero]
      norm_num
    have below : (y.significand : ℚ) * 2 ^ y.exponent < 2 ^ (unit + 52) :=
      fits.upper.trans_le (zpow_le_zpow_right₀ one_le_two (by omega))
    rw [power, abs_of_nonneg (sub_nonneg.mpr reached)] at least
    rw [abs_of_pos (sub_pos.mpr (below.trans_le reached))]
    linarith
  · obtain ⟨k, above⟩ := Int.le.dest coarser
    have multiple := multiples (y.significand * 2 ^ k)
    rw [← above, zpow_add₀ two_ne_zero, zpow_natCast]
    push_cast at multiple
    rw [mul_comm (2 ^ unit), ← mul_assoc]
    exact multiple

/-- Half a unit past the greatest finite number: this and what is above rounds to infinity. -/
def overflow : ℚ := (2 ^ 53 - 1 / 2) * 2 ^ (971 : Int)

theorem overflow_lt : overflow < 2 ^ (1024 : Int) := by
  have top : (2 : ℚ) ^ (1024 : Int) = 2 ^ 53 * 2 ^ (971 : Int) := by
    rw [← zpow_natCast, ← zpow_add₀ two_ne_zero]
    rfl
  rw [overflow, top]
  exact mul_lt_mul_of_pos_right (by norm_num) (by positivity)

theorem one_le_overflow : 1 ≤ overflow := by
  have power : (1 : ℚ) ≤ 2 ^ (971 : Int) := one_le_zpow₀ one_le_two (by decide)
  rw [overflow]
  exact one_le_mul_of_one_le_of_one_le (by norm_num) power

/-- The exponent of the last bit that a significand has room for. -/
structure LastBit (v : ℚ) (unit : Int) : Prop where
  least : -1074 ≤ unit
  most : unit ≤ 971
  large : -1074 < unit → 2 ^ (unit + 52) ≤ v
  small : v < 2 ^ (unit + 53)

theorem lastBit {q : Quotient} (positive : q.Positive) (below : q.value < overflow) :
    LastBit q.value (max (leadingBit q - 52) (-1074)) := by
  have leads := leadingBit_leads positive
  have lead : leadingBit q < 1024 :=
    (zpow_lt_zpow_iff_right₀ one_lt_two).mp (leads.lower.trans_lt (below.trans overflow_lt))
  refine ⟨le_max_right _ _, by omega, ?_, ?_⟩
  · intro more
    have same : max (leadingBit q - 52) (-1074) + 52 = leadingBit q := by omega
    rw [same]
    exact leads.lower
  · exact leads.upper.trans_le (zpow_le_zpow_right₀ one_le_two (by omega))

theorem LastBit.unique {v : ℚ} {unit other : Int} (own : LastBit v unit)
    (second : LastBit v other) : unit = other := by
  have ordered : ∀ {a b : Int}, LastBit v a → LastBit v b → ¬a < b := by
    intro a b left right less
    have above := right.large (left.least.trans_lt less)
    have power := (zpow_lt_zpow_iff_right₀ one_lt_two).mp (above.trans_lt left.small)
    omega
  have notBelow := ordered own second
  have notAbove := ordered second own
  omega

theorem ofMagnitudeBits_units (negative : Bool) {v : ℚ} {unit : Int} {n : Nat}
    (bit : LastBit v unit) (units : NearestEven (v / 2 ^ unit) n) (below : v < overflow) :
    (ofMagnitudeBits negative ((unit + 1074).toNat * exponentUnit + n)).isFinite = true ∧
      (ofMagnitudeBits negative ((unit + 1074).toNat * exponentUnit + n)).isNegative = negative ∧
      |(ofMagnitudeBits negative ((unit + 1074).toNat * exponentUnit + n)).value| =
        n * 2 ^ unit := by
  have some : (0 : ℚ) < 2 ^ unit := by positivity
  have used : -1074 < unit → 2 ^ 52 ≤ n := by
    intro more
    have above := bit.large more
    rw [add_comm, zpow_add₀ two_ne_zero, ← le_div_iff₀ some] at above
    apply units.lower
    exact_mod_cast above
  have room : n ≤ 2 ^ 53 := by
    have less := bit.small
    rw [add_comm, zpow_add₀ two_ne_zero, ← div_lt_iff₀ some] at less
    apply units.upper
    exact_mod_cast less.le
  -- At the greatest exponent there is no room to carry.
  have last : unit = 971 → n < 2 ^ 53 := by
    intro top
    have less : v / 2 ^ unit < 2 ^ 53 - 1 / 2 := by
      rw [div_lt_iff₀ some, top]
      exact below
    have near := abs_le.mp units.near
    have most : (n : ℚ) < (2 ^ 53 : Nat) := by
      push_cast
      linarith
    exact Nat.cast_lt.mp most
  obtain ⟨k, counted⟩ : ∃ k : Nat, unit + 1074 = k :=
    Int.eq_ofNat_of_zero_le (by have := bit.least; omega)
  have exponent : (k : Int) - 1074 = unit := by omega
  have finite : k * exponentUnit + n < 2047 * exponentUnit := by
    have most := bit.most
    unfold exponentUnit
    omega
  rw [counted, Int.toNat_natCast]
  obtain ⟨reached, same⟩ := ofMagnitudeBits_value negative room (fun more => used (by omega)) finite
  rw [exponent] at same
  exact ⟨reached, (ofMagnitudeBits_fields negative finite).1, same⟩

theorem ofMagnitudeBits_nearest (negative : Bool) {v : ℚ} {unit : Int} {n : Nat}
    (bit : LastBit v unit) (units : NearestEven (v / 2 ^ unit) n) (below : v < overflow) :
    Nearest negative v (ofMagnitudeBits negative ((unit + 1074).toNat * exponentUnit + n)) := by
  obtain ⟨finite, sign, same⟩ := ofMagnitudeBits_units negative bit units below
  exact ⟨finite, sign, fun y _ => closest_of_units same units bit.large y⟩

theorem ofQuotient_units {q : Quotient} (positive : q.Positive) (negative : Bool)
    (below : q.value < overflow) {unit : Int} {n : Nat} (bit : LastBit q.value unit)
    (units : NearestEven (q.value / 2 ^ unit) n) :
    ofQuotient negative q =
      ofMagnitudeBits negative ((unit + 1074).toNat * exponentUnit + n) := by
  have place : max (leadingBit q - 52) (-1074) = unit := (lastBit positive below).unique bit
  have rounded := roundDiv_nearest (q.scale2 (-unit)).num (positive.scale2 (-unit)).den
  rw [← Quotient.value, Quotient.value_scale2, zpow_neg, ← div_eq_mul_inv] at rounded
  unfold ofQuotient
  rw [if_neg positive.num.ne']
  simp only [place, rounded.unique units]

theorem ofQuotient_nearest {q : Quotient} (positive : q.Positive) (negative : Bool)
    (below : q.value < overflow) : Nearest negative q.value (ofQuotient negative q) := by
  have bit := lastBit positive below
  generalize max (leadingBit q - 52) (-1074) = unit at bit
  have units := roundDiv_nearest (q.scale2 (-unit)).num (positive.scale2 (-unit)).den
  rw [← Quotient.value, Quotient.value_scale2, zpow_neg, ← div_eq_mul_inv] at units
  rw [ofQuotient_units positive negative below bit units]
  exact ofMagnitudeBits_nearest negative bit units below

theorem zero_nearest (negative : Bool) {v : ℚ} (some : 0 ≤ v) (small : v ≤ 2 ^ (-1074 : Int) / 2) :
    Nearest negative v (zero negative) := by
  have unit : (0 : ℚ) < 2 ^ (-1074 : Int) := by positivity
  have half : |v / 2 ^ (-1074 : Int) - (0 : Nat)| ≤ 1 / 2 := by
    rw [Nat.cast_zero, sub_zero, abs_of_nonneg (div_nonneg some unit.le), div_le_iff₀ unit]
    linarith
  have less : v < 2 ^ (-1074 + 53 : Int) := by
    rw [add_comm, zpow_add₀ two_ne_zero]
    linarith
  have below : v < overflow := by
    have one : (2 : ℚ) ^ (-1074 + 53 : Int) ≤ 1 := zpow_le_one_of_nonpos₀ one_le_two (by decide)
    exact less.trans_le (one.trans one_le_overflow)
  have bit : LastBit v (-1074) := ⟨le_rfl, by decide, fun more => absurd more (by decide), less⟩
  exact ofMagnitudeBits_nearest negative bit ⟨half, fun _ => rfl⟩ below

theorem two_pow_le_ten_pow : (2 : ℚ) ^ (1200 : Int) ≤ 10 ^ (400 : Int) := by
  have powers : (2 : ℚ) ^ (1200 : Int) = (2 ^ 3) ^ (400 : Int) := by
    rw [← zpow_natCast, ← zpow_mul]
    rfl
  rw [powers]
  exact zpow_le_zpow_left₀ (by decide) (by norm_num) (by norm_num)

theorem leading_le {s : Scaled} (some : 0 < s.units) (below : s.value < overflow) :
    s.leading ≤ 400 := by
  by_contra far
  have power : (10 : ℚ) ^ (400 : Int) ≤ 10 ^ s.leading :=
    zpow_le_zpow_right₀ (by norm_num) (by omega)
  have top : (2 : ℚ) ^ (1024 : Int) ≤ 2 ^ (1200 : Int) :=
    zpow_le_zpow_right₀ one_le_two (by decide)
  have above := (top.trans two_pow_le_ten_pow).trans (power.trans (s.leads some).lower)
  exact absurd (below.trans overflow_lt) above.not_gt

theorem value_le_of_leading {s : Scaled} (some : 0 < s.units) (far : s.leading < -400) :
    s.value ≤ 2 ^ (-1200 : Int) := by
  have power : (10 : ℚ) ^ (s.leading + 1) ≤ 10 ^ (-400 : Int) :=
    zpow_le_zpow_right₀ (by norm_num) (by omega)
  have ten : (10 : ℚ) ^ (-400 : Int) ≤ 2 ^ (-1200 : Int) := by
    rw [zpow_neg, zpow_neg]
    exact inv_anti₀ (by positivity) two_pow_le_ten_pow
  exact (s.leads some).upper.le.trans (power.trans ten)

theorem quotient_positive {s : Scaled} (some : 0 < s.units) : s.quotient.Positive :=
  Quotient.Positive.shift ⟨some, Nat.one_pos⟩ _

theorem value_quotient (s : Scaled) : s.quotient.value = s.value := by
  rw [Scaled.quotient, Quotient.value_shift, Quotient.value, Nat.cast_one, div_one, Scaled.value]

/-- A decimal is read as a number nearest to it, with the sign in front of it. -/
theorem ofScaled_nearest {s : Scaled} (negative : Bool) (below : s.value < overflow) :
    Nearest negative s.value (ofScaled negative s) := by
  unfold ofScaled
  split
  · next none =>
    rw [Scaled.value, none, Nat.cast_zero, zero_mul]
    exact zero_nearest negative le_rfl (by positivity)
  · next nonzero =>
    have some : 0 < s.units := Nat.pos_of_ne_zero nonzero
    rw [if_neg (leading_le some below).not_gt]
    split
    · next far =>
      have half : (2 : ℚ) ^ (-1200 : Int) ≤ 2 ^ (-1074 : Int) / 2 := by
        rw [div_eq_mul_inv, ← zpow_sub_one₀ two_ne_zero]
        exact zpow_le_zpow_right₀ one_le_two (by decide)
      exact zero_nearest negative (Scaled.value_pos some).le
        ((value_le_of_leading some far).trans half)
    · rw [← value_quotient] at below ⊢
      exact ofQuotient_nearest (quotient_positive some) negative below

theorem word?_digit (negative : Bool) {c : Char} (digit : c.isDigit = true) (more : List Char) :
    word? negative (c :: more) = none := by
  have lower : c.toLower = c := by
    have code := Char.isDigit_iff_toNat.mp digit
    unfold Char.toLower
    rw [dif_neg]
    intro upper
    have above : 'A'.toNat ≤ c.toNat := upper.1
    have nine : '9'.toNat < 'A'.toNat := by decide
    omega
  have other : ∀ {word : String}, word.toList.head?.any Char.isDigit = false →
      String.ofList ((c :: more).map Char.toLower) ≠ word := by
    rintro _ letter rfl
    rw [String.toList_ofList, List.map_cons, lower] at letter
    cases digit.symm.trans letter
  unfold word?
  split
  · next same => exact absurd same (other (by decide))
  · next same => exact absurd same (other (by decide))
  · next same => exact absurd same (other (by decide))
  · rfl

theorem splitSign_number {text : List Char} (spelled : Json.IsNumber text) :
    ∃ c more, (splitSign text).2 = c :: more ∧ c.isDigit = true := by
  obtain ⟨sign, whole, fraction, exponent, rfl, signs, wholes, _⟩ := spelled
  cases whole with
  | nil => exact absurd rfl wholes.1.1
  | cons c others =>
    have digit := wholes.1.2 c List.mem_cons_self
    refine ⟨c, others ++ fraction ++ exponent, ?_, digit⟩
    rcases signs with rfl | rfl
    · exact congrArg Prod.snd (splitSign_digit digit (others ++ fraction ++ exponent) false)
    · exact congrArg Prod.snd (splitSign_digit digit (others ++ fraction ++ exponent) true)

theorem ofLiteral?_spells {text : List Char} {negative : Bool} {worth : ℚ}
    (spells : SpellsReal text negative worth) :
    ∃ s, s.value = worth ∧ ofLiteral? text = some (ofScaled negative s) := by
  obtain ⟨c, more, rest, digit⟩ := splitSign_number spells.spelled
  obtain ⟨s, reads, same⟩ := spells.size
  refine ⟨s, same, ?_⟩
  unfold ofLiteral?
  simp only
  rw [spells.sign, reads, rest, word?_digit negative digit]
  rfl

/-- A number that has a fraction or an exponent is read as a number nearest to it. -/
theorem ofLiteral?_nearest {text : List Char} {negative : Bool} {worth : ℚ}
    (spells : SpellsReal text negative worth) (below : worth < overflow) :
    ∃ x, ofLiteral? text = some x ∧ Nearest negative worth x := by
  obtain ⟨s, rfl, reads⟩ := ofLiteral?_spells spells
  exact ⟨ofScaled negative s, reads, ofScaled_nearest negative below⟩

end StructuredLog.Binary64
