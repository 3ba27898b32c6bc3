import StructuredLog.Binary64.Text
import StructuredLog.Proofs.Decimal.Layout

/-!
Binary numbers as numbers of documents: a sign, and a decimal that is no whole number.
-/

namespace StructuredLog.Binary64

open Decimal
open Json (IsNumber IsWhole)

/-- A number that has a fraction or an exponent, its sign, and what it is worth without the sign. -/
structure SpellsReal (text : List Char) (negative : Bool) (worth : ℚ) : Prop where
  spelled : IsNumber text
  real : '.' ∈ text ∨ 'e' ∈ text ∨ 'E' ∈ text
  sign : (splitSign text).1 = negative
  size : ∃ s, decimal? (splitSign text).2 = some s ∧ s.value = worth

def written? (text : List Char) : Option ℚ :=
  (decimal? (splitSign text).2).map fun s => (if (splitSign text).1 then -1 else 1) * s.value

theorem SpellsReal.written {text : List Char} {negative : Bool} {worth : ℚ}
    (spells : SpellsReal text negative worth) :
    written? text = some ((if negative then -1 else 1) * worth) := by
  obtain ⟨s, reads, same⟩ := spells.size
  rw [written?, reads, spells.sign, Option.map_some, same]

theorem magnitude_positive {x : Binary64} (nonzero : x.isZero = false) : x.magnitude.Positive := by
  have significand : x.significand ≠ 0 := by
    intro zero
    rw [isZero, zero] at nonzero
    cases nonzero
  exact Quotient.Positive.scale2 ⟨Nat.pos_of_ne_zero significand, Nat.one_pos⟩ _

theorem rounded_zero {x : Binary64} (zero : x.isZero = true) (count : Nat) :
    (rounded count x).value = 0 := by
  have significand : x.significand = 0 := of_decide_eq_true zero
  exact Quotient.significant_zero (Quotient.scale2_zero significand _) count

theorem splitSign_digit {c : Char} (digit : c.isDigit = true) (more : List Char)
    (negative : Bool) :
    splitSign ((if negative then ['-'] else []) ++ c :: more) = (negative, c :: more) := by
  cases negative with
  | true => rfl
  | false =>
    simp only [Bool.false_eq_true, ↓reduceIte, List.nil_append]
    unfold splitSign
    split
    · next same =>
      cases same
      cases digit
    · next same =>
      cases same
      cases digit
    · rfl

theorem splitSign_writes {text : List Char} {value : ℚ} (writes : WritesReal text value)
    (negative : Bool) :
    splitSign ((if negative then ['-'] else []) ++ text) = (negative, text) := by
  obtain ⟨whole, fraction, exponent, _, rfl, wholes, _⟩ := writes
  cases whole with
  | nil => exact absurd rfl wholes.1.1
  | cons c more => exact splitSign_digit (wholes.1.2 c List.mem_cons_self) _ negative

theorem spells_of_writes {text : List Char} {value : ℚ} (writes : WritesReal text value)
    (negative : Bool) : SpellsReal ((if negative then ['-'] else []) ++ text) negative value := by
  have split := splitSign_writes writes negative
  obtain ⟨whole, fraction, exponent, power, rfl, wholes, fractions, exponents, more, reads,
    worth⟩ := writes
  refine ⟨⟨if negative then ['-'] else [], whole, fraction, exponent, ?_, ?_, wholes, fractions,
    exponents⟩, ?_, ?_, ?_⟩
  · simp only [List.append_assoc]
  · cases negative with
    | true => exact .inr rfl
    | false => exact .inl rfl
  · simp only [List.mem_append]
    rcases more with point | mark
    · rcases fractions with none | ⟨digits, same, _⟩
      · exact absurd none point
      · left
        simp [same]
    · rcases exponents with none | ⟨letter, sign, digits, same, rfl | rfl, _⟩
      · exact absurd none mark
      · right
        left
        simp [same]
      · right
        right
        simp [same]
  · rw [split]
  · rw [split]
    exact ⟨_, decimal?_parts wholes.1 fractions exponents reads, worth.symm⟩

theorem zero_writes : WritesReal ['0', '.', '0'] 0 := by
  refine ⟨['0'], ['.', '0'], [], 0, rfl, ⟨zero_isDigits, .inl rfl⟩,
    .inr ⟨['0'], rfl, zero_isDigits⟩, .inl rfl, .inl (List.cons_ne_nil _ _), rfl, ?_⟩
  have none : Text.digitsValue (['0'] ++ ['0']) = 0 := rfl
  rw [List.tail_cons, none, Nat.cast_zero, zero_mul]

theorem signedText_spells (layout : Layout) (digits : Binary64 → Scaled) (x : Binary64)
    (positive : x.isZero = false → 0 < (digits x).units) :
    SpellsReal (x.signedText layout digits) x.isNegative
      (if x.isZero then 0 else (digits x).value) := by
  unfold signedText
  cases zero : x.isZero with
  | true => exact spells_of_writes zero_writes x.isNegative
  | false => exact spells_of_writes (text_writes layout (positive zero)) x.isNegative

/-- With two significant digits or more, the text spells the number rounded to them. -/
theorem rounded_spells (layout : Layout) {count : Nat} (digits : 2 ≤ count) (x : Binary64) :
    SpellsReal (x.signedText layout (rounded count)) x.isNegative (rounded count x).value := by
  have spells := signedText_spells layout (rounded count) x
    (fun nonzero => Quotient.significant_pos (magnitude_positive nonzero) digits)
  cases zero : x.isZero with
  | true =>
    rw [zero, if_pos rfl] at spells
    rw [rounded_zero zero]
    exact spells
  | false =>
    rw [zero, if_neg Bool.false_ne_true] at spells
    exact spells

end StructuredLog.Binary64
