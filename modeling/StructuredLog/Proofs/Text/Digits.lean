import Mathlib.Algebra.Ring.Nat
import Mathlib.Data.List.TakeWhile
import StructuredLog.Text.Digits

/-!
Runs of characters of one kind, and the numbers that runs of digits write.
-/

namespace StructuredLog.Text

theorem run_taken {p : Char → Bool} {run rest : List Char} (inside : ∀ c ∈ run, p c = true)
    (ends : ∀ c, rest.head? = some c → p c = false) :
    (run ++ rest).takeWhile p = run ∧ (run ++ rest).dropWhile p = rest := by
  have stops : rest.takeWhile p = [] ∧ rest.dropWhile p = rest := by
    cases rest with
    | nil => exact ⟨rfl, rfl⟩
    | cons c more =>
      have other := ends c rfl
      simp only [List.takeWhile_cons, List.dropWhile_cons, other, Bool.false_eq_true, ↓reduceIte,
        and_self]
  rw [List.takeWhile_append_of_pos inside, List.dropWhile_append_of_pos inside, stops.1, stops.2,
    List.append_nil]
  exact ⟨rfl, rfl⟩

theorem others_differ {c : Char} {text : List Char} (none : c ∉ text) :
    ∀ d ∈ text, (d != c) = true := by
  intro d member
  rw [bne_iff_ne]
  rintro rfl
  exact none member

theorem run_before {c : Char} {before : List Char} (first : c ∉ before) (after : List Char) :
    (before ++ c :: after).takeWhile (· != c) = before ∧
      (before ++ c :: after).dropWhile (· != c) = c :: after := by
  apply run_taken (others_differ first)
  rintro _ ⟨⟩
  exact bne_self_eq_false c

theorem parted (c : Char) (text : List Char) :
    (c ∉ text ∧ text.takeWhile (· != c) = text ∧ text.dropWhile (· != c) = []) ∨
      ∃ before after, text = before ++ c :: after ∧ c ∉ before ∧
        text.takeWhile (· != c) = before ∧ text.dropWhile (· != c) = c :: after := by
  by_cases present : c ∈ text
  · obtain ⟨before, after, rfl, first⟩ := List.eq_append_cons_of_mem present
    exact .inr ⟨before, after, rfl, first, run_before first after⟩
  · exact .inl ⟨present, List.takeWhile_eq_self_iff.mpr (others_differ present),
      List.dropWhile_eq_nil_iff.mpr (others_differ present)⟩

theorem digitsValue_eq (digits : List Char) : digitsValue digits = Nat.ofDigitChars 10 digits 0 :=
  Nat.ofDigitChars_eq_foldl.symm

theorem digitsValue_append (first second : List Char) :
    digitsValue (first ++ second) =
      10 ^ second.length * digitsValue first + digitsValue second := by
  rw [digitsValue_eq, Nat.ofDigitChars_append, Nat.ofDigitChars_eq_ofDigitChars_zero,
    ← digitsValue_eq, ← digitsValue_eq]

theorem digitsValue_zeros (count : Nat) : digitsValue (List.replicate count '0') = 0 := by
  rw [digitsValue_eq, Nat.ofDigitChars_replicate_zero, Nat.mul_zero]

theorem digitsValue_zeros_append (count : Nat) (digits : List Char) :
    digitsValue (List.replicate count '0' ++ digits) = digitsValue digits := by
  rw [digitsValue_append, digitsValue_zeros, Nat.mul_zero, Nat.zero_add]

theorem digitsValue_append_zeros (digits : List Char) (count : Nat) :
    digitsValue (digits ++ List.replicate count '0') = digitsValue digits * 10 ^ count := by
  rw [digitsValue_append, digitsValue_zeros, List.length_replicate, Nat.add_zero, Nat.mul_comm]

theorem digitsValue_toDigits (n : Nat) : digitsValue (Nat.toDigits 10 n) = n := by
  rw [digitsValue_eq, Nat.ofDigitChars_ten_toDigits]

theorem toDigits_isDigit (n : Nat) : ∀ c ∈ Nat.toDigits 10 n, c.isDigit = true :=
  fun _ member => Nat.isDigit_of_mem_toDigits (by decide) (by decide) member

theorem digitsValue_lt (digits : List Char) (only : ∀ c ∈ digits, c.isDigit = true) :
    digitsValue digits < 10 ^ digits.length := by
  induction digits with
  | nil => decide
  | cons c rest ih =>
    have later := ih (fun d member => only d (List.mem_cons_of_mem _ member))
    have digit := Char.isDigit_iff_toNat.mp (only c List.mem_cons_self)
    have first : digitsValue [c] ≤ 9 := by
      have nine : '9'.toNat = 57 := rfl
      have zero : '0'.toNat = 48 := rfl
      simp only [digitsValue, List.foldl_cons, List.foldl_nil]
      omega
    have split := digitsValue_append [c] rest
    have scaled := Nat.mul_le_mul_left (10 ^ rest.length) first
    rw [List.singleton_append] at split
    rw [split, List.length_cons, Nat.pow_succ]
    omega

theorem toDigits_head {n : Nat} (positive : 0 < n) : (Nat.toDigits 10 n).head? ≠ some '0' := by
  intro zero
  have value := digitsValue_toDigits n
  have only := toDigits_isDigit n
  have shortest := fun k => Nat.length_toDigits_le_iff (n := n) (k := k) (b := 10) (by decide)
  -- After a zero the other digits would write the same number in fewer places.
  cases same : Nat.toDigits 10 n with
  | nil => exact Nat.toDigits_ne_nil same
  | cons c rest =>
    rw [same] at zero value only shortest
    obtain rfl : c = '0' := Option.some.inj zero
    have rests : digitsValue rest = n := by
      rw [← value]
      exact (digitsValue_zeros_append 1 rest).symm
    have below := digitsValue_lt rest (fun d member => only d (List.mem_cons_of_mem _ member))
    cases rest with
    | nil =>
      have none : digitsValue [] = 0 := rfl
      omega
    | cons d more =>
      have short := (shortest (d :: more).length (by simp)).mpr (rests ▸ below)
      simp only [List.length_cons] at short
      omega

end StructuredLog.Text
