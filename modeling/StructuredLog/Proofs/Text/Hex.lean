import Mathlib.Data.List.Basic
import StructuredLog.Decimal.Layout
import StructuredLog.Text.Digits

/-!
Numbers to base sixteen: their digits write them, in small letters and in capitals, with no zeros in
front but those that make up a width.
-/

namespace StructuredLog.Text

def hexNumber (digits : List Char) : Nat :=
  digits.foldl (fun n d => 16 * n + (hexValue? d).getD 0) 0

def smallHex : List Char := "0123456789abcdef".toList

def capitalHex : List Char := "0123456789ABCDEF".toList

/-- A number in digits of an alphabet, with zeros in front only up to a width. -/
structure SpellsHex (alphabet : List Char) (width n : Nat) (digits : List Char) : Prop where
  only : ∀ d ∈ digits, d ∈ alphabet
  worth : hexNumber digits = n
  wide : width ≤ digits.length
  plain : width < digits.length → digits.head? ≠ some '0'

theorem hexNumber_snoc (digits : List Char) (d : Char) :
    hexNumber (digits ++ [d]) = 16 * hexNumber digits + (hexValue? d).getD 0 := by
  rw [hexNumber, List.foldl_append]
  rfl

theorem digitChar_small (n : Nat) (small : n < 16) :
    n.digitChar ∈ smallHex ∧ hexValue? n.digitChar = some n ∧ (0 < n → n.digitChar ≠ '0') := by
  have all : ∀ i : Fin 16, (i : Nat).digitChar ∈ smallHex ∧
      hexValue? (i : Nat).digitChar = some i.val ∧ (0 < (i : Nat) → (i : Nat).digitChar ≠ '0') := by
    decide
  exact all ⟨n, small⟩

theorem hexDigits_head {n : Nat} (positive : 0 < n) : (hexDigits n).head? ≠ some '0' := by
  induction n using Nat.strongRecOn with
  | ind n ih =>
    unfold hexDigits at ih ⊢
    by_cases small : n < 16
    · rw [Nat.toDigits_of_lt_base small, List.head?_cons]
      intro zero
      exact (digitChar_small n small).2.2 positive (Option.some.inj zero)
    · have front := ih (n / 16) (by omega) (by omega)
      rw [Nat.toDigits_of_base_le (by decide) (by omega),
        List.head?_append_of_ne_nil _ Nat.toDigits_ne_nil]
      exact front

theorem hexDigits_spells (n : Nat) : SpellsHex smallHex 1 n (hexDigits n) := by
  have written : (∀ d ∈ hexDigits n, d ∈ smallHex) ∧ hexNumber (hexDigits n) = n := by
    induction n using Nat.strongRecOn with
    | ind n ih =>
      unfold hexDigits at ih ⊢
      by_cases small : n < 16
      · obtain ⟨among, value, -⟩ := digitChar_small n small
        rw [Nat.toDigits_of_lt_base small, List.forall_mem_singleton]
        refine ⟨among, ?_⟩
        rw [hexNumber, List.foldl_cons, List.foldl_nil, value]
        exact Nat.zero_add n
      · obtain ⟨only, worth⟩ := ih (n / 16) (by omega)
        obtain ⟨among, value, -⟩ := digitChar_small (n % 16) (Nat.mod_lt _ (by decide))
        rw [Nat.toDigits_of_base_le (by decide) (by omega), List.forall_mem_append,
          List.forall_mem_singleton, hexNumber_snoc, worth, value]
        exact ⟨⟨only, among⟩, Nat.div_add_mod n 16⟩
  refine ⟨written.1, written.2, Nat.length_toDigits_pos, ?_⟩
  intro more
  apply hexDigits_head
  apply Nat.pos_of_ne_zero
  rintro rfl
  exact absurd more (by decide)

theorem toUpper_small : ∀ d ∈ smallHex, d.toUpper ∈ capitalHex ∧
    hexValue? d.toUpper = hexValue? d ∧ (d.toUpper = '0' → d = '0') := by
  have all : smallHex.all (fun d => d.toUpper ∈ capitalHex ∧
      hexValue? d.toUpper = hexValue? d ∧ (d.toUpper = '0' → d = '0')) = true := by
    decide
  intro d member
  exact of_decide_eq_true (List.all_eq_true.mp all d member)

namespace SpellsHex

variable {width n : Nat} {digits : List Char}

theorem capitals (spells : SpellsHex smallHex width n digits) :
    SpellsHex capitalHex width n (digits.map Char.toUpper) := by
  refine ⟨?_, ?_, ?_, ?_⟩
  · intro c member
    obtain ⟨d, among, rfl⟩ := List.mem_map.mp member
    exact (toUpper_small d (spells.only d among)).1
  · have same : ∀ more : List Char, (∀ d ∈ more, d ∈ smallHex) →
        hexNumber (more.map Char.toUpper) = hexNumber more := by
      intro more only
      unfold hexNumber
      rw [List.foldl_map]
      apply List.foldl_ext
      intro value d member
      rw [(toUpper_small d (only d member)).2.1]
    rw [same digits spells.only, spells.worth]
  · rw [List.length_map]
    exact spells.wide
  · rw [List.length_map, List.head?_map]
    intro more zero
    obtain ⟨d, first, upper⟩ := Option.map_eq_some_iff.mp zero
    have among := spells.only d (List.mem_of_mem_head? first)
    rw [(toUpper_small d among).2.2 upper] at first
    exact spells.plain more first

theorem zeros_worth (count : Nat) (digits : List Char) :
    hexNumber (List.replicate count '0' ++ digits) = hexNumber digits := by
  induction count with
  | zero => rfl
  | succ count ih => exact ih

theorem padded {alphabet : List Char} (spells : SpellsHex alphabet width n digits)
    (zero : '0' ∈ alphabet) {places : Nat} (wider : width ≤ places) :
    SpellsHex alphabet places n (Decimal.padLeft '0' places digits) := by
  unfold Decimal.padLeft
  refine ⟨?_, ?_, ?_, ?_⟩
  · intro d member
    rcases List.mem_append.mp member with front | own
    · rw [List.eq_of_mem_replicate front]
      exact zero
    · exact spells.only d own
  · rw [zeros_worth, spells.worth]
  · rw [List.length_append, List.length_replicate]
    omega
  · rw [List.length_append, List.length_replicate]
    intro more
    have none : places - digits.length = 0 := by omega
    rw [none]
    exact spells.plain (by omega)

end SpellsHex

end StructuredLog.Text
