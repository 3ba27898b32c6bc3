import StructuredLog.Proofs.Binary64.Nearest
import StructuredLog.Proofs.Decimal.Shape
import StructuredLog.Record.Real

/-!
The real numbers of records. A finite one is written as the nearest decimal of twenty significant
digits, and that is nearer to it than to any other.
-/

namespace StructuredLog.Record

open Binary64 (rounded signedText written?)
open Decimal (Scaled Leads Layout)
open Json (IsNumber)

/-- What the text of a positive number shows: the decimal `d` that the number is rounded to, halves
to the even neighbour, in the notation that its leading exponent `e` asks for. -/
structure Shows (v : ℚ) (d : Scaled) (e : Int) (text : List Char) : Prop where
  rounds : d.Rounds 20 v
  leads : Leads 10 e d.value
  shaped : Layout.Shaped ⟨-4, 19, 2⟩ e text
  exponent : 'e' ∈ text ↔ e < -4 ∨ 20 ≤ e

theorem rounded_rounds {x : Binary64} (nonzero : x.isZero = false) :
    (rounded significantDigits x).Rounds 20 |x.value| := by
  rw [Binary64.abs_value]
  exact Decimal.Quotient.significant_rounds (Binary64.magnitude_positive nonzero) (by decide)

theorem rounded_units {x : Binary64} (nonzero : x.isZero = false) :
    0 < (rounded significantDigits x).units :=
  Decimal.Quotient.significant_pos (Binary64.magnitude_positive nonzero) (by decide)

theorem rounded_shows {x : Binary64} (nonzero : x.isZero = false) :
    Shows |x.value| (rounded significantDigits x) (rounded significantDigits x).leading
      (realLayout.text (rounded significantDigits x)) := by
  have units := rounded_units nonzero
  have shaped := realLayout.text_shaped units
  have lowest : realLayout.lowest = -4 := rfl
  have highest : realLayout.highest = 19 := rfl
  refine ⟨rounded_rounds nonzero, Scaled.leads units, shaped, ?_⟩
  rw [shaped.mark_iff, lowest, highest]
  omega

theorem realText_finite {x : Binary64} (finite : x.isFinite = true) :
    realText x = x.signedText realLayout (rounded significantDigits) := if_pos finite

theorem realText_written {x : Binary64} (finite : x.isFinite = true) :
    written? (realText x) =
      some ((if x.isNegative then -1 else 1) * (rounded significantDigits x).value) := by
  rw [realText_finite finite]
  exact (Binary64.rounded_spells realLayout (by decide) x).written

/-- A number that is not finite is written as null, a zero with its sign, and any other one with its
sign and as its twenty significant digits. No finite one can be taken for a whole number. -/
theorem realText_rounded (x : Binary64) :
    if x.isFinite then
      IsNumber (realText x) ∧ ('.' ∈ realText x ∨ 'e' ∈ realText x) ∧
        ∃ text, realText x = (if x.isNegative then ['-'] else []) ++ text ∧
          if x.value = 0 then text = ['0', '.', '0']
          else ∃ d e, Shows |x.value| d e text ∧
            written? (realText x) = some ((if x.isNegative then -1 else 1) * d.value)
    else realText x = ['n', 'u', 'l', 'l'] := by
  split
  · next finite =>
    have spells := Binary64.rounded_spells realLayout (by decide : 2 ≤ significantDigits) x
    have written := realText_written finite
    rw [← realText_finite finite] at spells
    have text := realText_finite finite
    unfold signedText at text
    cases zero : x.isZero with
    | true =>
      rw [zero, if_pos rfl] at text
      refine ⟨spells.spelled, ?_, _, text, ?_⟩
      · rw [text]
        simp
      · rw [if_pos (Binary64.value_eq_zero.mpr zero)]
    | false =>
      have nonzero : x.value ≠ 0 := by
        intro none
        rw [Binary64.value_eq_zero.mp none] at zero
        cases zero
      have shows := rounded_shows zero
      rw [zero, if_neg Bool.false_ne_true] at text
      refine ⟨spells.spelled, ?_, _, text, ?_⟩
      · rw [text, List.mem_append, List.mem_append]
        rcases shows.shaped.point_or_mark with point | mark
        · exact .inl (.inr point)
        · exact .inr (.inr mark)
      · rw [if_neg nonzero]
        exact ⟨_, _, shows, written⟩
  · next infinite => exact if_neg infinite

example : realText ⟨0x3EB0000000000000⟩ = "9.5367431640625e-07".toList := rfl

/-- The digits may be taken in a second rounding of the number, to the places after the point that
the exponent of the first rounding leaves of twenty digits. -/
theorem realText_again {x : Binary64} (finite : x.isFinite = true) :
    realText x = x.signedText realLayout fun x =>
      x.magnitude.fixed (19 - (rounded significantDigits x).leading) := by
  rw [realText_finite finite]
  unfold signedText
  cases zero : x.isZero with
  | true => rfl
  | false =>
    have again := Decimal.Quotient.significant_again (Binary64.magnitude_positive zero)
      (by decide : 1 ≤ significantDigits)
    exact congrArg _ (Layout.text_same realLayout (rounded_units zero) again.symm)

def shown (x : Binary64) : ℚ :=
  (if x.isNegative then -1 else 1) * (rounded significantDigits x).value

/-- Two numbers of one sign are as far apart as their sizes. -/
theorem shown_apart (x : Binary64) {y : Binary64} (sign : y.isNegative = x.isNegative) :
    |shown x - y.value| = |((rounded significantDigits x).value - |y.value|)| := by
  nth_rewrite 1 [y.value_signed]
  rw [shown, sign, ← mul_sub, abs_mul]
  cases x.isNegative <;> norm_num

/-- Twenty digits are off by less than what 53 bits leave between two numbers. -/
theorem shown_close (x : Binary64) : 2 ^ 60 * |shown x - x.value| ≤ |x.value| := by
  cases zero : x.isZero with
  | true =>
    rw [shown, Binary64.rounded_zero zero, Binary64.value_eq_zero.mpr zero]
    norm_num
  | false =>
    have rounds := rounded_rounds zero
    have error := rounds.error
    have lower : 10 ^ 19 * 10 ^ (rounded significantDigits x).power ≤ |x.value| :=
      rounds.lower (by decide)
    have unit : (0 : ℚ) < 10 ^ (rounded significantDigits x).power := by positivity
    rw [shown_apart x rfl, abs_sub_comm]
    linarith

theorem shown_nearest {x y : Binary64} (differ : y.value ≠ x.value) :
    |shown x - x.value| < |shown x - y.value| := by
  have close := shown_close x
  have apart := Binary64.value_apart differ.symm
  have way := abs_sub_le x.value (shown x) y.value
  have some : 0 < |x.value - y.value| := abs_pos.mpr (sub_ne_zero.mpr differ.symm)
  rw [abs_sub_comm x.value (shown x)] at way
  linarith

theorem rounded_below {x : Binary64} (finite : x.isFinite = true) :
    (rounded significantDigits x).value < Binary64.overflow := by
  have close := shown_close x
  have most := Binary64.abs_value_le finite
  have unit : (0 : ℚ) < 2 ^ (971 : Int) := by positivity
  rw [shown_apart x rfl] at close
  have above := le_abs_self ((rounded significantDigits x).value - |x.value|)
  rw [Binary64.overflow]
  generalize (2 : ℚ) ^ (971 : Int) = last at unit most ⊢
  linarith

theorem realText_reads {x : Binary64} (finite : x.isFinite = true) :
    Binary64.ofLiteral? (realText x) = some x := by
  have spells := Binary64.rounded_spells realLayout (by decide : 2 ≤ significantDigits) x
  rw [← realText_finite finite] at spells
  obtain ⟨y, reads, nearest⟩ := Binary64.ofLiteral?_nearest spells (rounded_below finite)
  have same : y.value = x.value := by
    by_contra differ
    have nearer := shown_nearest differ
    rw [shown_apart x rfl, shown_apart x nearest.sign] at nearer
    exact (nearest.closest x finite).not_gt nearer
  rw [reads, Binary64.eq_of_value nearest.sign (congrArg abs same)]

/-- The text of a finite number is nearer to it than to any other, is read as it again, and is the
text of no other. -/
theorem realText_nearest {x : Binary64} (finite : x.isFinite = true) :
    (∃ v, written? (realText x) = some v ∧
      ∀ y : Binary64, y.isFinite = true → y.value ≠ x.value → |v - x.value| < |v - y.value|) ∧
    Binary64.ofLiteral? (realText x) = some x ∧
    ∀ y : Binary64, y.isFinite = true → realText y = realText x → y = x := by
  refine ⟨⟨shown x, realText_written finite, fun y _ => shown_nearest⟩, realText_reads finite, ?_⟩
  intro y otherFinite same
  have other := realText_reads otherFinite
  rw [same, realText_reads finite, Option.some.injEq] at other
  exact other.symm

def tenth : Binary64 := ⟨0x3FB999999999999A⟩

theorem tenth_nearest :
    tenth.isFinite = true ∧ realText tenth = "0.10000000000000000555".toList ∧
      (∃ v, written? (realText tenth) = some v ∧
        ∀ y : Binary64, y.isFinite = true → y.value ≠ tenth.value →
          |v - tenth.value| < |v - y.value|) ∧
      Binary64.ofLiteral? "0.10000000000000000555".toList = some tenth ∧
      ∀ y : Binary64, y.isFinite = true → realText y = realText tenth → y = tenth := by
  have finite : tenth.isFinite = true := by decide
  obtain ⟨nearest, reads, only⟩ := realText_nearest finite
  exact ⟨finite, rfl, nearest, reads, only⟩

end StructuredLog.Record
