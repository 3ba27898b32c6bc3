import Mathlib.Data.List.Basic
import StructuredLog.Binary64.Literal
import StructuredLog.Decimal.Layout
import StructuredLog.Proofs.Decimal.Rounding
import StructuredLog.Proofs.Json.Grammar

/-!
Decimals as numbers of documents. A layout gives a number with a fraction or an exponent, and the
number is worth as much as the decimal.
-/

namespace StructuredLog.Decimal

open Binary64 (decimal? exponent? wholeNumber?)
open Json (IsDigits IsWhole IsFraction IsExponent)
open Text (digitsValue)

def WritesReal (text : List Char) (value : ℚ) : Prop :=
  ∃ whole fraction exponent power, text = whole ++ fraction ++ exponent ∧
    IsWhole whole ∧ IsFraction fraction ∧ IsExponent exponent ∧ (fraction ≠ [] ∨ exponent ≠ []) ∧
    exponent? exponent = some power ∧
    value = digitsValue (whole ++ fraction.tail) * 10 ^ (power - (fraction.tail.length : Int))

theorem exponent_ends {exponent : List Char} (spelled : IsExponent exponent) :
    ∀ c, exponent.head? = some c → c.isDigit = false := by
  intro c head
  rcases spelled with rfl | ⟨mark, sign, digits, rfl, marks, _, _⟩
  · cases head
  · cases head
    rcases marks with rfl | rfl <;> decide

theorem decimal?_parts {whole fraction exponent : List Char} {power : Int}
    (wholes : IsDigits whole) (fractions : IsFraction fraction) (exponents : IsExponent exponent)
    (reads : exponent? exponent = some power) :
    decimal? (whole ++ fraction ++ exponent) =
      some ⟨digitsValue (whole ++ fraction.tail), power - (fraction.tail.length : Int)⟩ := by
  have nonempty : whole.isEmpty = false := by
    rw [List.isEmpty_eq_false_iff]
    exact wholes.1
  have ends := exponent_ends exponents
  rcases fractions with rfl | ⟨digits, rfl, only⟩
  · rw [List.append_nil]
    obtain ⟨taken, dropped⟩ := Text.run_taken wholes.2 ends
    have opened : decimal? (whole ++ exponent) =
        if whole.isEmpty && List.isEmpty ([] : List Char) then none
        else (exponent? exponent).map fun power =>
          ⟨digitsValue (whole ++ []), power - (0 : Nat)⟩ := by
      unfold decimal?
      rw [taken, dropped]
      rcases exponents with rfl | ⟨mark, sign, digits, rfl, rfl | rfl, _, _⟩ <;> rfl
    rw [opened, nonempty, reads]
    simp only [Bool.false_and, Bool.false_eq_true, ↓reduceIte, Option.map_some, List.tail_nil,
      List.append_nil, List.length_nil]
  · have point : ∀ c, ('.' :: (digits ++ exponent)).head? = some c → c.isDigit = false := by
      intro c head
      cases head
      decide
    obtain ⟨taken, dropped⟩ := Text.run_taken wholes.2 point
    obtain ⟨inner, after⟩ := Text.run_taken only.2 ends
    rw [List.append_assoc, List.cons_append]
    unfold decimal?
    rw [taken, dropped]
    simp only [inner, after, nonempty, Bool.false_and, Bool.false_eq_true, ↓reduceIte, reads,
      Option.map_some, List.tail_cons]

theorem isDigits_append {first second : List Char} (begins : IsDigits first)
    (others : ∀ c ∈ second, c.isDigit = true) : IsDigits (first ++ second) := by
  constructor
  · exact List.append_ne_nil_of_left_ne_nil begins.1 _
  · intro c member
    rcases List.mem_append.mp member with here | there
    · exact begins.2 c here
    · exact others c there

theorem zeros_isDigit (count : Nat) : ∀ c ∈ List.replicate count '0', c.isDigit = true := by
  intro c member
  rw [List.eq_of_mem_replicate member]
  decide

theorem zero_isDigits : IsDigits ['0'] := ⟨List.cons_ne_nil _ _, zeros_isDigit 1⟩

theorem inFull_writes {digits : List Char} (only : IsDigits digits)
    (first : digits.head? ≠ some '0') (e : Int) :
    WritesReal (inFull digits e)
      (digitsValue digits * 10 ^ (e - ((digits.length : Int) - 1))) := by
  have ten : (10 : ℚ) ≠ 0 := by decide
  cases e with
  | negSucc below =>
    have rest : IsDigits (List.replicate below '0' ++ digits) := by
      refine ⟨List.append_ne_nil_of_right_ne_nil _ only.1, ?_⟩
      intro c member
      rcases List.mem_append.mp member with zero | digit
      · exact zeros_isDigit below c zero
      · exact only.2 c digit
    refine ⟨['0'], '.' :: (List.replicate below '0' ++ digits), [], 0, ?_, ?_, .inr ⟨_, rfl, rest⟩,
      .inl rfl, .inl (List.cons_ne_nil _ _), rfl, ?_⟩
    · simp only [inFull, List.cons_append, List.nil_append, List.append_nil]
    · exact ⟨zero_isDigits, .inl rfl⟩
    · have value : digitsValue (['0'] ++ (List.replicate below '0' ++ digits)) =
          digitsValue digits := by
        rw [← List.append_assoc]
        exact Text.digitsValue_zeros_append (below + 1) digits
      rw [List.tail_cons, value, List.length_append, List.length_replicate]
      congr 2
      omega
  | ofNat above =>
    simp only [inFull, Int.ofNat_eq_natCast]
    split
    -- Zeros fill up the places before the point, or it stands among the digits.
    · next short =>
      have length : digits.length ≤ above + 1 := List.drop_eq_nil_iff.mp short
      refine ⟨digits ++ List.replicate (above + 1 - digits.length) '0', ['.', '0'], [], 0, ?_,
        ?_, .inr ⟨['0'], rfl, zero_isDigits⟩, .inl rfl,
        .inl (List.cons_ne_nil _ _), rfl, ?_⟩
      · rw [List.append_nil]
      · refine ⟨isDigits_append only (zeros_isDigit _), .inr ?_⟩
        cases digits with
        | nil => exact absurd rfl only.1
        | cons d more => exact first
      · have value : digitsValue (digits ++ List.replicate (above + 1 - digits.length) '0' ++ ['0'])
            = digitsValue digits * 10 ^ (above + 1 - digits.length + 1) := by
          rw [List.append_assoc, ← List.replicate_succ', Text.digitsValue_append_zeros]
        rw [List.tail_cons, value, Nat.cast_mul, Nat.cast_pow, Nat.cast_ofNat, ← zpow_natCast,
          mul_assoc, ← zpow_add₀ ten]
        congr 2
        simp only [List.length_singleton]
        omega
    · next fraction long =>
      have length : above + 1 < digits.length := by
        apply Nat.lt_of_not_le
        intro short
        exact long (List.drop_eq_nil_iff.mpr short)
      have parts : digits.take (above + 1) ++ digits.drop (above + 1) = digits :=
        List.take_append_drop _ _
      refine ⟨digits.take (above + 1), '.' :: digits.drop (above + 1), [], 0, ?_, ?_,
        .inr ⟨_, rfl, long, ?_⟩, .inl rfl, .inl (List.cons_ne_nil _ _), rfl, ?_⟩
      · rw [List.append_nil]
      · refine ⟨⟨?_, fun c member => only.2 c (List.mem_of_mem_take member)⟩, .inr ?_⟩
        · intro none
          rw [none, List.nil_append] at parts
          have dropped := congrArg List.length parts
          rw [List.length_drop] at dropped
          omega
        · rw [List.head?_take, if_neg (Nat.succ_ne_zero above)]
          exact first
      · intro c member
        exact only.2 c (List.mem_of_mem_drop member)
      · rw [List.tail_cons, parts, List.length_drop]
        congr 2
        omega

theorem wholeNumber?_split {text digits : List Char} {negative : Bool}
    (split : Binary64.splitSign text = (negative, digits)) (only : IsDigits digits) :
    wholeNumber? text =
      some (if negative then -(digitsValue digits : Int) else digitsValue digits) := by
  have nonempty : digits.isEmpty = false := by
    rw [List.isEmpty_eq_false_iff]
    exact only.1
  have all : digits.all Char.isDigit = true := List.all_eq_true.mpr only.2
  simp only [wholeNumber?, split, nonempty, all, Bool.not_true, Bool.or_self, Bool.false_eq_true,
    ↓reduceIte]

theorem exponent?_signed {e : Int} {digits : List Char} (only : IsDigits digits)
    (value : digitsValue digits = e.natAbs) :
    exponent? ('e' :: [if e < 0 then '-' else '+'] ++ digits) = some e := by
  have reads : ∀ sign : Char, exponent? ('e' :: [sign] ++ digits) = wholeNumber? (sign :: digits) :=
    fun _ => rfl
  rw [reads]
  by_cases below : e < 0
  · have minus : Binary64.splitSign ('-' :: digits) = (true, digits) := rfl
    rw [if_pos below, wholeNumber?_split minus only, value, if_pos rfl, Option.some.injEq]
    omega
  · have plus : Binary64.splitSign ('+' :: digits) = (false, digits) := rfl
    rw [if_neg below, wholeNumber?_split plus only, value, if_neg Bool.false_ne_true,
      Option.some.injEq]
    omega

theorem paddedDigits (places n : Nat) :
    IsDigits (padLeft '0' places (Nat.toDigits 10 n)) ∧
      digitsValue (padLeft '0' places (Nat.toDigits 10 n)) = n := by
  refine ⟨⟨List.append_ne_nil_of_right_ne_nil _ Nat.toDigits_ne_nil, ?_⟩, ?_⟩
  · exact List.forall_mem_append.mpr ⟨zeros_isDigit _, Text.toDigits_isDigit n⟩
  · rw [padLeft, Text.digitsValue_zeros_append, Text.digitsValue_toDigits]

theorem exponent_writes (places : Nat) (e : Int) :
    let text := 'e' :: [if e < 0 then '-' else '+'] ++
      padLeft '0' places (Nat.toDigits 10 e.natAbs)
    IsExponent text ∧ exponent? text = some e := by
  intro text
  obtain ⟨only, value⟩ := paddedDigits places e.natAbs
  refine ⟨.inr ⟨'e', _, _, rfl, .inl rfl, ?_, only⟩, exponent?_signed only value⟩
  by_cases negative : e < 0
  · rw [if_pos negative]
    exact .inr (.inr rfl)
  · rw [if_neg negative]
    exact .inr (.inl rfl)

theorem withExponent_writes {digits : List Char} (only : IsDigits digits)
    (first : digits.head? ≠ some '0') (places : Nat) (e : Int) :
    WritesReal (withExponent places digits e)
      (digitsValue digits * 10 ^ (e - ((digits.length : Int) - 1))) := by
  obtain ⟨spelled, reads⟩ := exponent_writes places e
  have nonempty : 'e' :: [if e < 0 then '-' else '+'] ++
      padLeft '0' places (Nat.toDigits 10 e.natAbs) ≠ [] := List.cons_ne_nil _ _
  cases digits with
  | nil => exact absurd rfl only.1
  | cons d more =>
    have single : IsWhole [d] := by
      refine ⟨⟨List.cons_ne_nil _ _, ?_⟩, .inr first⟩
      intro c member
      rw [List.mem_singleton.mp member]
      exact only.2 d List.mem_cons_self
    cases more with
    | nil =>
      refine ⟨[d], [], _, e, ?_, single, .inl rfl, spelled, .inr nonempty, reads, ?_⟩
      · rfl
      · simp
    | cons second others =>
      refine ⟨[d], '.' :: second :: others, _, e, ?_, single,
        .inr ⟨_, rfl, List.cons_ne_nil _ _, ?_⟩, spelled, .inr nonempty, reads, ?_⟩
      · simp [withExponent]
      · intro c member
        exact only.2 c (List.mem_cons_of_mem _ member)
      · simp

theorem stripZeros_append (digits : List Char) :
    ∃ count, digits = stripZeros digits ++ List.replicate count '0' := by
  induction digits with
  | nil => exact ⟨0, rfl⟩
  | cons d rest ih =>
    obtain ⟨count, same⟩ := ih
    unfold stripZeros
    split
    · next none =>
      rw [none, List.nil_append] at same
      by_cases zero : d = '0'
      · refine ⟨count + 1, ?_⟩
        rw [if_pos zero, zero, same]
        rfl
      · refine ⟨count, ?_⟩
        rw [if_neg zero, same]
        rfl
    · next kept some =>
      refine ⟨count, ?_⟩
      rw [List.cons_append, ← same]

theorem stripZeros_digits {n : Nat} (positive : 0 < n) :
    let digits := stripZeros (Nat.toDigits 10 n)
    IsDigits digits ∧ digits.head? ≠ some '0' ∧
      ∃ count, digitCount n = digits.length + count ∧ n = digitsValue digits * 10 ^ count := by
  intro digits
  obtain ⟨count, same⟩ := stripZeros_append (Nat.toDigits 10 n)
  have all := Text.toDigits_isDigit n
  have head := Text.toDigits_head positive
  have units := Text.digitsValue_toDigits n
  have length : digitCount n = digits.length + count := by
    rw [digitCount, congrArg List.length same, List.length_append, List.length_replicate]
  rw [same] at all head units
  rw [Text.digitsValue_append_zeros] at units
  have nonempty : digits ≠ [] := by
    intro none
    have zero : digitsValue digits = 0 := congrArg digitsValue none
    rw [zero, Nat.zero_mul] at units
    omega
  refine ⟨⟨nonempty, fun c member => all c (List.mem_append_left _ member)⟩, ?_, count, length,
    units.symm⟩
  rw [List.head?_append_of_ne_nil _ nonempty] at head
  exact head

theorem text_writes (layout : Layout) {value : Scaled} (positive : 0 < value.units) :
    WritesReal (layout.text value) value.value := by
  obtain ⟨only, first, count, length, units⟩ := stripZeros_digits positive
  unfold Layout.text
  generalize stripZeros (Nat.toDigits 10 value.units) = digits at only first length units ⊢
  -- The place of the leading digit makes up for the zeros that were stripped.
  have worth : value.value =
      digitsValue digits * 10 ^ (value.leading - ((digits.length : Int) - 1)) := by
    have places : value.leading - ((digits.length : Int) - 1) = count + value.power := by
      have some := List.length_pos_iff.mpr only.1
      rw [Scaled.leading, length]
      omega
    rw [Scaled.value, units, places, zpow_add₀ (by decide), Nat.cast_mul, Nat.cast_pow,
      Nat.cast_ofNat, zpow_natCast, mul_assoc]
  rw [worth]
  unfold Layout.place
  split
  · exact inFull_writes only first _
  · exact withExponent_writes only first _ _

end StructuredLog.Decimal
