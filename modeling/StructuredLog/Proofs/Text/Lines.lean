import Mathlib.Data.List.Basic
import StructuredLog.Proofs.Text.Search

/-!
Texts line by line. A text is a last line, which no feed ends, or a line with its feed and a text
after it; what is done to the lines of a text is done to each of them in turn.
-/

namespace StructuredLog.Text

variable {α : Type}

/-- What holds of a line and goes on from a text to one with a line before it holds of all texts. -/
theorem line_induction [DecidableEq α] (feed : α) {P : List α → Prop}
    (last : ∀ line, feed ∉ line → P line)
    (next : ∀ line rest, feed ∉ line → P rest → P (line ++ feed :: rest)) (text : List α) :
    P text := by
  induction size : text.length using Nat.strongRecOn generalizing text with
  | ind n ih =>
    by_cases member : feed ∈ text
    · obtain ⟨line, rest, rfl, absent⟩ := List.eq_append_cons_of_mem member
      have shorter : rest.length < n := by
        rw [← size, List.length_append, List.length_cons]
        omega
      exact next line rest absent (ih _ shorter rest rfl)
    · exact last text member

section Lines

variable [DecidableEq α] {feed : α}

theorem lines_last {line : List α} (absent : feed ∉ line) (nonempty : line ≠ []) :
    lines feed line = [line] := by
  induction line with
  | nil => exact absurd rfl nonempty
  | cons c rest ih =>
    rw [List.mem_cons, not_or] at absent
    rw [lines, if_neg fun same => absent.1 same.symm]
    cases rest with
    | nil => rfl
    | cons d rest => rw [ih absent.2 (List.cons_ne_nil d rest)]

theorem lines_next {line : List α} (absent : feed ∉ line) (rest : List α) :
    lines feed (line ++ feed :: rest) = (line ++ [feed]) :: lines feed rest := by
  induction line with
  | nil => exact if_pos rfl
  | cons c line ih =>
    rw [List.mem_cons, not_or] at absent
    rw [List.cons_append, lines, if_neg fun same => absent.1 same.symm, ih absent.2]
    rfl

theorem lines_flatten (text : List α) : (lines feed text).flatten = text := by
  induction text using line_induction feed with
  | last line absent =>
    cases line with
    | nil => rfl
    | cons c line =>
      rw [lines_last absent (List.cons_ne_nil c line), List.flatten_singleton]
  | next line rest absent ih =>
    rw [lines_next absent, List.flatten_cons, ih, List.append_assoc, List.singleton_append]

end Lines

theorem splitOn_next {separator : Char} {line : List Char} (absent : separator ∉ line)
    (rest : List Char) :
    splitOn separator (line ++ separator :: rest) = line :: splitOn separator rest := by
  induction line with
  | nil => exact if_pos rfl
  | cons c line ih =>
    rw [List.mem_cons, not_or] at absent
    rw [List.cons_append, splitOn, if_neg fun same => absent.1 same.symm, ih absent.2]

/-- The pieces are those into which the library splits a list. -/
theorem splitOn_eq (separator : Char) (text : List Char) :
    splitOn separator text = text.splitOn separator := by
  induction text with
  | nil => rfl
  | cons c rest ih =>
    rw [splitOn, ih, List.splitOn_cons_eq_if_modifyHead]
    by_cases same : c = separator
    · rw [if_pos same, if_pos (beq_iff_eq.mpr same)]
    · rw [if_neg same, if_neg (mt beq_iff_eq.mp same)]
      cases pieces : rest.splitOn separator with
      | nil => exact absurd pieces (List.splitOn_ne_nil separator rest)
      | cons piece others => rfl

theorem length_splitOn (separator : Char) (text : List Char) :
    (splitOn separator text).length = text.count separator + 1 := by
  induction text using line_induction separator with
  | last line absent => rw [splitOn_same absent, List.count_eq_zero_of_not_mem absent]; rfl
  | next line rest absent ih =>
    rw [splitOn_next absent, List.length_cons, ih, List.count_append,
      List.count_eq_zero_of_not_mem absent, List.count_cons_self, Nat.zero_add]

end StructuredLog.Text
