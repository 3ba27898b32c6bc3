import Mathlib.Algebra.Order.Field.Power
import Mathlib.Algebra.Order.Field.Rat
import Mathlib.Tactic.FieldSimp
import Mathlib.Tactic.Linarith
import Mathlib.Tactic.Positivity
import Mathlib.Tactic.Ring
import StructuredLog.Decimal.Rounding

/-!
What decimals are worth, and what a number of significant digits makes of a quotient: the nearest
decimal with as many of them.
-/

namespace StructuredLog.Decimal

def Scaled.value (s : Scaled) : ℚ := s.units * 10 ^ s.power

theorem digitCount_pos (n : Nat) : 0 < digitCount n := Nat.length_toDigits_pos

theorem lt_pow_digitCount (n : Nat) : n < 10 ^ digitCount n :=
  (Nat.length_toDigits_le_iff (by decide) (digitCount_pos n)).mp (Nat.le_refl _)

theorem pow_digitCount_le {n : Nat} (positive : 0 < n) : 10 ^ (digitCount n - 1) ≤ n := by
  by_cases single : digitCount n = 1
  · rw [single]
    exact positive
  · have count := digitCount_pos n
    have longer := Nat.length_toDigits_le_iff (n := n) (b := 10) (k := digitCount n - 1) (by decide)
      (by omega)
    apply Nat.le_of_not_lt
    intro below
    have short : digitCount n ≤ digitCount n - 1 := longer.mpr below
    omega

theorem digitCount_eq {n count : Nat} (some : 0 < count) (low : 10 ^ (count - 1) ≤ n)
    (high : n < 10 ^ count) : digitCount n = count := by
  have most : digitCount n ≤ count := (Nat.length_toDigits_le_iff (by decide) some).mpr high
  have least : count - 1 < digitCount n :=
    (Nat.pow_lt_pow_iff_right (by decide)).mp (low.trans_lt (lt_pow_digitCount n))
  omega

structure Quotient.Positive (q : Quotient) : Prop where
  num : 0 < q.num
  den : 0 < q.den

theorem Quotient.Positive.shift {q : Quotient} (positive : q.Positive) (k : Int) :
    (q.shift k).Positive := by
  cases k with
  | ofNat k => exact ⟨Nat.mul_pos positive.num (Nat.pow_pos (by decide)), positive.den⟩
  | negSucc k => exact ⟨positive.num, Nat.mul_pos positive.den (Nat.pow_pos (by decide))⟩

theorem Quotient.Positive.scale2 {q : Quotient} (positive : q.Positive) (k : Int) :
    (q.scale2 k).Positive := by
  cases k with
  | ofNat k => exact ⟨Nat.mul_pos positive.num (Nat.pow_pos (by decide)), positive.den⟩
  | negSucc k => exact ⟨positive.num, Nat.mul_pos positive.den (Nat.pow_pos (by decide))⟩

theorem Quotient.shift_zero {q : Quotient} (zero : q.num = 0) (k : Int) : (q.shift k).num = 0 := by
  cases k with
  | ofNat k => exact (congrArg (· * Nat.pow 10 k) zero).trans (Nat.zero_mul _)
  | negSucc k => exact zero

theorem Quotient.scale2_zero {q : Quotient} (zero : q.num = 0) (k : Int) :
    (q.scale2 k).num = 0 := by
  cases k with
  | ofNat k => exact (congrArg (· * Nat.pow 2 k) zero).trans (Nat.zero_mul _)
  | negSucc k => exact zero

theorem Quotient.significant_zero {q : Quotient} (zero : q.num = 0) (count : Nat) :
    (q.significant count).value = 0 := by
  have units : (q.significant count).units = 0 := by
    simp only [significant, shift_zero zero, roundDiv, Nat.zero_div, Nat.zero_mod, Nat.mul_zero]
    split
    · rfl
    · split <;> omega
  rw [Scaled.value, units, Nat.cast_zero, zero_mul]

theorem roundDiv_pos {num den : Nat} (positive : 0 < den) (large : den ≤ num) :
    0 < roundDiv num den := by
  have quotient : 0 < num / den := Nat.div_pos large positive
  unfold roundDiv
  simp only
  split
  · exact quotient
  · split <;> omega

theorem Quotient.leading_le (q : Quotient) :
    q.leading ≤ (digitCount q.num : Int) - digitCount q.den := by
  unfold leading
  simp only
  split <;> omega

theorem Quotient.shift_large {q : Quotient} (positive : q.Positive) {k : Int}
    (far : (digitCount q.den : Int) - digitCount q.num + 1 ≤ k) :
    (q.shift k).den ≤ (q.shift k).num := by
  have num := pow_digitCount_le positive.num
  have den := lt_pow_digitCount q.den
  have numCount := digitCount_pos q.num
  cases k with
  | ofNat k =>
    rw [Int.ofNat_eq_natCast] at far
    calc q.den ≤ 10 ^ digitCount q.den := Nat.le_of_lt den
      _ ≤ 10 ^ (digitCount q.num - 1 + k) := Nat.pow_le_pow_right (by decide) (by omega)
      _ = 10 ^ (digitCount q.num - 1) * 10 ^ k := Nat.pow_add _ _ _
      _ ≤ q.num * 10 ^ k := Nat.mul_le_mul_right _ num
  | negSucc k =>
    calc q.den * 10 ^ (k + 1) ≤ 10 ^ digitCount q.den * 10 ^ (k + 1) :=
          Nat.mul_le_mul_right _ (Nat.le_of_lt den)
      _ = 10 ^ (digitCount q.den + (k + 1)) := (Nat.pow_add _ _ _).symm
      _ ≤ 10 ^ (digitCount q.num - 1) := Nat.pow_le_pow_right (by decide) (by omega)
      _ ≤ q.num := num

theorem Quotient.significant_pos {q : Quotient} (positive : q.Positive) {count : Nat}
    (digits : 2 ≤ count) : 0 < (q.significant count).units := by
  have far : (digitCount q.den : Int) - digitCount q.num + 1 ≤ -q.lastPlace count := by
    have leading := q.leading_le
    rw [lastPlace]
    omega
  exact roundDiv_pos (positive.shift _).den (shift_large positive far)

namespace Quotient

def value (q : Quotient) : ℚ := q.num / q.den

theorem Positive.value {q : Quotient} (positive : q.Positive) : 0 < q.value :=
  div_pos (Nat.cast_pos.mpr positive.num) (Nat.cast_pos.mpr positive.den)

theorem value_shift (q : Quotient) (k : Int) : (q.shift k).value = q.value * 10 ^ k := by
  cases k with
  | ofNat k =>
    simp only [shift, value, Nat.pow_eq, Nat.cast_mul, Nat.cast_pow, Nat.cast_ofNat,
      Int.ofNat_eq_natCast, zpow_natCast]
    ring
  | negSucc k =>
    simp only [shift, value, Nat.pow_eq, Nat.cast_mul, Nat.cast_pow, Nat.cast_ofNat, zpow_negSucc]
    rw [div_mul_eq_div_div, div_eq_mul_inv]

theorem value_scale2 (q : Quotient) (k : Int) : (q.scale2 k).value = q.value * 2 ^ k := by
  cases k with
  | ofNat k =>
    simp only [scale2, value, Nat.pow_eq, Nat.cast_mul, Nat.cast_pow, Nat.cast_ofNat,
      Int.ofNat_eq_natCast, zpow_natCast]
    ring
  | negSucc k =>
    simp only [scale2, value, Nat.pow_eq, Nat.cast_mul, Nat.cast_pow, Nat.cast_ofNat, zpow_negSucc]
    rw [div_mul_eq_div_div, div_eq_mul_inv]

theorem one_le_value {q : Quotient} (positive : 0 < q.den) : 1 ≤ q.value ↔ q.den ≤ q.num := by
  rw [value, one_le_div (Nat.cast_pos.mpr positive), Nat.cast_le]

end Quotient

structure Leads (base : ℚ) (e : Int) (v : ℚ) : Prop where
  lower : base ^ e ≤ v
  upper : v < base ^ (e + 1)

namespace Leads

variable {base : ℚ} {e f : Int} {v w : ℚ}

theorem unique (large : 1 < base) (first : Leads base e v) (second : Leads base f v) : e = f := by
  have low := (zpow_lt_zpow_iff_right₀ large).mp (first.lower.trans_lt second.upper)
  have high := (zpow_lt_zpow_iff_right₀ large).mp (second.lower.trans_lt first.upper)
  omega

theorem shift (large : 1 < base) (leads : Leads base e v) (k : Int) :
    Leads base (e + k) (v * base ^ k) := by
  have some : 0 < base := one_pos.trans large
  have unit : 0 < base ^ k := zpow_pos some k
  refine ⟨?_, ?_⟩
  · rw [zpow_add₀ some.ne']
    exact mul_le_mul_of_nonneg_right leads.lower unit.le
  · rw [add_right_comm, zpow_add₀ some.ne']
    exact mul_lt_mul_of_pos_right leads.upper unit

/-- The leading places of two numbers leave two candidates for that of their quotient, and a
comparison decides. -/
theorem div (large : 1 < base) (num : Leads base e v) (den : Leads base f w) :
    Leads base (if 1 ≤ v / w * base ^ (f - e) then e - f else e - f - 1) (v / w) := by
  have some : 0 < base := one_pos.trans large
  have below : 0 < w := (zpow_pos some f).trans_le den.lower
  have low : base ^ (e - f - 1) ≤ v / w := by
    rw [le_div_iff₀ below]
    calc base ^ (e - f - 1) * w ≤ base ^ (e - f - 1) * base ^ (f + 1) :=
          mul_le_mul_of_nonneg_left den.upper.le (zpow_pos some _).le
      _ = base ^ e := by
          rw [← zpow_add₀ some.ne']
          congr 1
          omega
      _ ≤ v := num.lower
  have high : v / w < base ^ (e - f + 1) := by
    rw [div_lt_iff₀ below]
    calc v < base ^ (e + 1) := num.upper
      _ = base ^ (e - f + 1) * base ^ f := by
          rw [← zpow_add₀ some.ne']
          congr 1
          omega
      _ ≤ base ^ (e - f + 1) * w := mul_le_mul_of_nonneg_left den.lower (zpow_pos some _).le
  have compare : 1 ≤ v / w * base ^ (f - e) ↔ base ^ (e - f) ≤ v / w := by
    rw [← neg_sub, zpow_neg, ← div_eq_mul_inv, one_le_div (zpow_pos some _)]
  split
  · next above => exact ⟨compare.mp above, high⟩
  · next under =>
    refine ⟨low, ?_⟩
    rw [sub_add_cancel]
    exact lt_of_not_ge fun above => under (compare.mpr above)

end Leads

theorem leads_digitCount {n : Nat} (positive : 0 < n) :
    Leads 10 (digitCount n - 1 : Nat) (n : ℚ) := by
  have count := digitCount_pos n
  have low : ((10 ^ (digitCount n - 1) : Nat) : ℚ) ≤ n :=
    Nat.cast_le.mpr (pow_digitCount_le positive)
  have high : (n : ℚ) < ((10 ^ digitCount n : Nat) : ℚ) := Nat.cast_lt.mpr (lt_pow_digitCount n)
  have next : ((digitCount n - 1 : Nat) : Int) + 1 = (digitCount n : Nat) := by omega
  refine ⟨?_, ?_⟩
  · rw [zpow_natCast]
    exact_mod_cast low
  · rw [next, zpow_natCast]
    exact_mod_cast high

theorem Quotient.leads {q : Quotient} (positive : q.Positive) : Leads 10 q.leading q.value := by
  have num := leads_digitCount positive.num
  have den := leads_digitCount positive.den
  have numCount := digitCount_pos q.num
  have denCount := digitCount_pos q.den
  have leads := num.div (by norm_num) den
  have guess : ((digitCount q.num - 1 : Nat) : Int) - (digitCount q.den - 1 : Nat) =
      digitCount q.num - digitCount q.den := by omega
  have compare := one_le_value (positive.shift (-((digitCount q.num : Int) - digitCount q.den))).den
  rw [value_shift] at compare
  rw [← neg_sub, guess, ← Quotient.value] at leads
  simp only [compare] at leads
  exact leads

/-- A whole number nearest to another number, the even one where there are two. -/
structure NearestEven (v : ℚ) (n : Nat) : Prop where
  near : |v - n| ≤ 1 / 2
  even : |v - n| = 1 / 2 → n % 2 = 0

theorem NearestEven.unique {v : ℚ} {m n : Nat} (first : NearestEven v m)
    (second : NearestEven v n) : m = n := by
  -- Two different ones would be neighbours, with the number halfway between them.
  have ordered : ∀ {a b : Nat}, NearestEven v a → NearestEven v b → ¬a < b := by
    intro a b left right less
    have apart : (a : ℚ) + 1 ≤ b := by exact_mod_cast less
    have low := abs_le.mp left.near
    have high := abs_le.mp right.near
    have next : (b : ℚ) = (a + 1 : Nat) := by
      push_cast
      linarith
    obtain rfl : b = a + 1 := Nat.cast_injective next
    push_cast at high apart
    have half : v - a = 1 / 2 := by linarith
    have evenLeft := left.even (by rw [half, abs_of_pos (by norm_num)])
    have halfRight : v - (a + 1 : Nat) = -(1 / 2) := by
      push_cast
      linarith
    have evenRight := right.even (by rw [halfRight, abs_neg, abs_of_pos (by norm_num)])
    omega
  have notLess := ordered first second
  have notMore := ordered second first
  omega

theorem NearestEven.of_lt {v : ℚ} {n : Nat} (near : |v - n| < 1 / 2) : NearestEven v n :=
  ⟨near.le, fun half => absurd half near.ne⟩

theorem NearestEven.of_even {v : ℚ} {n : Nat} (half : |v - n| = 1 / 2) (even : n % 2 = 0) :
    NearestEven v n :=
  ⟨half.le, fun _ => even⟩

namespace NearestEven

variable {v : ℚ} {n : Nat}

theorem closest (nearest : NearestEven v n) (k : Int) : |v - n| ≤ |v - k| := by
  by_cases same : (n : Int) = k
  · rw [← same, Int.cast_natCast]
  · have apart : (1 : ℚ) ≤ |(n : ℚ) - k| := by
      have units := Int.one_le_abs (sub_ne_zero.mpr same)
      exact_mod_cast units
    have way := abs_sub_le (n : ℚ) v k
    rw [abs_sub_comm (n : ℚ) v] at way
    linarith [nearest.near]

theorem lower (nearest : NearestEven v n) {k : Nat} (above : k ≤ v) : k ≤ n := by
  have near := abs_le.mp nearest.near
  have less : (k : ℚ) < (n + 1 : Nat) := by
    push_cast
    linarith
  exact Nat.lt_succ_iff.mp (Nat.cast_lt.mp less)

theorem upper (nearest : NearestEven v n) {k : Nat} (below : v ≤ k) : n ≤ k := by
  have near := abs_le.mp nearest.near
  have less : (n : ℚ) < (k + 1 : Nat) := by
    push_cast
    linarith
  exact Nat.lt_succ_iff.mp (Nat.cast_lt.mp less)

end NearestEven

theorem roundDiv_nearest (num : Nat) {den : Nat} (positive : 0 < den) :
    NearestEven (num / den) (roundDiv num den) := by
  have below : (0 : ℚ) < den := Nat.cast_pos.mpr positive
  have parts : (num : ℚ) / den = (num / den : Nat) + (2 * (num % den) : Nat) / den / 2 := by
    have whole : ((den * (num / den) + num % den : Nat) : ℚ) = num := by rw [Nat.div_add_mod]
    rw [← whole]
    push_cast
    field_simp
  have some : (0 : ℚ) ≤ (2 * (num % den) : Nat) / den := by positivity
  have less : ((2 * (num % den) : Nat) : ℚ) / den < 2 := by
    rw [div_lt_iff₀ below]
    exact_mod_cast Nat.mul_lt_mul_of_pos_left (Nat.mod_lt num positive) (by decide)
  rw [parts]
  unfold roundDiv
  simp only
  split
  · next under =>
    have small : ((2 * (num % den) : Nat) : ℚ) / den < 1 :=
      (div_lt_one below).mpr (Nat.cast_lt.mpr under)
    apply NearestEven.of_lt
    rw [add_sub_cancel_left, abs_of_nonneg (by linarith)]
    linarith
  · split
    · next above =>
      have large : 1 < ((2 * (num % den) : Nat) : ℚ) / den :=
        (one_lt_div below).mpr (Nat.cast_lt.mpr above)
      apply NearestEven.of_lt
      rw [Nat.cast_add, Nat.cast_one, add_sub_add_left_eq_sub, abs_of_nonpos (by linarith)]
      linarith
    · next notUnder notAbove =>
      have tie : 2 * (num % den) = den := by omega
      rw [tie, div_self below.ne']
      apply NearestEven.of_even
      · rcases Nat.mod_two_eq_zero_or_one (num / den) with even | odd
        · rw [even, Nat.add_zero, add_sub_cancel_left, abs_of_pos (by norm_num)]
        · rw [odd, Nat.cast_add, Nat.cast_one, add_sub_add_left_eq_sub, abs_of_nonpos (by norm_num)]
          norm_num
      · omega

namespace Scaled

theorem value_pos {s : Scaled} (positive : 0 < s.units) : 0 < s.value :=
  mul_pos (Nat.cast_pos.mpr positive) (by positivity)

theorem leads {s : Scaled} (positive : 0 < s.units) : Leads 10 s.leading s.value := by
  have units := (leads_digitCount positive).shift (by norm_num) s.power
  rw [add_comm] at units
  exact units

/-- A decimal is a number rounded to so many significant digits, halves to the even neighbour: its
unit is that of the last of these digits, and it has the nearest whole number of them. -/
structure Rounds (s : Scaled) (count : Nat) (v : ℚ) : Prop where
  leads : Leads 10 (s.power + count - 1) v
  nearest : NearestEven (v / 10 ^ s.power) s.units

theorem Rounds.unique {s t : Scaled} {count : Nat} {v : ℚ} (first : s.Rounds count v)
    (second : t.Rounds count v) : s = t := by
  rcases s with ⟨units, power⟩
  rcases t with ⟨others, place⟩
  have same : power + count - 1 = place + count - 1 := first.leads.unique (by norm_num) second.leads
  obtain rfl : power = place := by omega
  rw [Scaled.mk.injEq]
  exact ⟨first.nearest.unique second.nearest, rfl⟩

theorem Rounds.error {s : Scaled} {count : Nat} {v : ℚ} (rounds : s.Rounds count v) :
    |v - s.value| ≤ 10 ^ s.power / 2 := by
  have unit : (0 : ℚ) < 10 ^ s.power := by positivity
  have scaled : v - s.value = (v / 10 ^ s.power - s.units) * 10 ^ s.power := by
    rw [sub_mul, div_mul_cancel₀ _ unit.ne', Scaled.value]
  rw [scaled, abs_mul, abs_of_pos unit]
  linarith [mul_le_mul_of_nonneg_right rounds.nearest.near unit.le]

theorem Rounds.lower {s : Scaled} {count : Nat} {v : ℚ} (rounds : s.Rounds count v)
    (digits : 1 ≤ count) : 10 ^ (count - 1) * 10 ^ s.power ≤ v := by
  have lead : (10 : ℚ) ^ (s.power + count - 1) = 10 ^ (count - 1) * 10 ^ s.power := by
    rw [← zpow_natCast, ← zpow_add₀ (by norm_num)]
    congr 1
    omega
  rw [← lead]
  exact rounds.leads.lower

/-- A rounded number has its leading digit where the number has it, unless it was rounded up to the
next power of ten. -/
theorem Rounds.leading {s : Scaled} {count : Nat} {v : ℚ} (rounds : s.Rounds count v)
    (digits : 1 ≤ count) :
    s.leading = s.power + count - 1 ∨
      s.units = 10 ^ count ∧ s.leading = s.power + count := by
  have unit : (0 : ℚ) < 10 ^ s.power := by positivity
  have low : 10 ^ (count - 1) ≤ s.units := by
    apply rounds.nearest.lower
    rw [le_div_iff₀ unit]
    exact_mod_cast rounds.lower digits
  have high : s.units ≤ 10 ^ count := by
    apply rounds.nearest.upper
    have top : (10 : ℚ) ^ (s.power + count) = (10 ^ count : Nat) * 10 ^ s.power := by
      push_cast
      rw [add_comm, zpow_add₀ (by norm_num), zpow_natCast]
    have upper := rounds.leads.upper
    rw [sub_add_cancel, top] at upper
    exact ((div_lt_iff₀ unit).mpr upper).le
  rcases Nat.lt_or_eq_of_le high with less | reached
  · left
    have places := digitCount_eq digits low less
    rw [Scaled.leading, places]
    omega
  · right
    have places : digitCount s.units = count + 1 :=
      digitCount_eq (Nat.succ_pos count) reached.ge (reached ▸ Nat.pow_lt_pow_succ (by decide))
    refine ⟨reached, ?_⟩
    rw [Scaled.leading, places]
    omega

end Scaled

theorem Quotient.significant_rounds {q : Quotient} (positive : q.Positive) {count : Nat}
    (digits : 1 ≤ count) : (q.significant count).Rounds count q.value := by
  have leads := q.leads positive
  have scaled := q.value_shift (-q.lastPlace count)
  rw [zpow_neg, ← div_eq_mul_inv] at scaled
  refine ⟨?_, ?_⟩
  · have place : q.lastPlace count + count - 1 = q.leading := by
      rw [lastPlace]
      omega
    rw [significant, place]
    exact leads
  · rw [significant, ← scaled]
    exact roundDiv_nearest _ (positive.shift _).den

def Quotient.fixed (q : Quotient) (places : Int) : Scaled :=
  ⟨roundDiv (q.shift places).num (q.shift places).den, -places⟩

theorem Quotient.fixed_nearest {q : Quotient} (positive : q.Positive) (places : Int) :
    NearestEven (q.value * 10 ^ places) (q.fixed places).units := by
  rw [← value_shift]
  exact roundDiv_nearest _ (positive.shift _).den

/-- The exponent of a rounded number tells the places that its digits take. Rounding the number a
second time, to these places, gives the same again: where the first rounding reached a power of ten,
so does the second one, which has a digit less. -/
theorem Quotient.significant_again {q : Quotient} (positive : q.Positive) {count : Nat}
    (digits : 1 ≤ count) :
    (q.fixed ((count : Int) - 1 - (q.significant count).leading)).value =
      (q.significant count).value := by
  have rounds := q.significant_rounds positive digits
  generalize q.significant count = s at rounds ⊢
  rcases rounds.leading digits with same | ⟨reached, next⟩
  · have places : (count : Int) - 1 - s.leading = -s.power := by omega
    have fixed := q.fixed_nearest positive (-s.power)
    rw [zpow_neg, ← div_eq_mul_inv] at fixed
    rw [places, Scaled.value, fixed.unique rounds.nearest, Quotient.fixed, neg_neg, Scaled.value]
  · have places : (count : Int) - 1 - s.leading = -(s.power + 1) := by omega
    have fixed := q.fixed_nearest positive (-(s.power + 1))
    have unit : (0 : ℚ) < 10 ^ s.power := by positivity
    have tenth : q.value * 10 ^ (-(s.power + 1)) - (10 ^ (count - 1) : Nat) =
        (q.value / 10 ^ s.power - s.units) / 10 := by
      obtain ⟨fewer, rfl⟩ := Nat.exists_eq_add_of_le' digits
      rw [reached, zpow_neg, zpow_add₀ (by norm_num), zpow_one, Nat.add_sub_cancel]
      push_cast
      field_simp
      ring
    have other : NearestEven (q.value * 10 ^ (-(s.power + 1))) (10 ^ (count - 1)) := by
      apply NearestEven.of_lt
      rw [tenth, abs_div, abs_of_pos (by norm_num : (0 : ℚ) < 10)]
      linarith [rounds.nearest.near]
    obtain ⟨fewer, rfl⟩ := Nat.exists_eq_add_of_le' digits
    rw [places, Scaled.value, fixed.unique other, Quotient.fixed, neg_neg, Scaled.value, reached,
      zpow_add₀ (by norm_num), Nat.add_sub_cancel]
    push_cast
    ring

end StructuredLog.Decimal
