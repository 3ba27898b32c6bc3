import StructuredLog.Text.Search

/-!
Searching in texts: what is found at the front, and how a search goes over characters with which no
occurrence begins or which are in none.
-/

namespace StructuredLog.Text

theorem after?_eq_some {part text rest : List Char} :
    after? part text = some rest ↔ text = part ++ rest := by
  induction part generalizing text with
  | nil => simp only [after?, Option.some.injEq, List.nil_append]
  | cons p part ih =>
    cases text with
    | nil => simp [after?]
    | cons c text =>
      by_cases same : p = c
      · subst same
        simp only [after?, ↓reduceIte, ih, List.cons_append, List.cons.injEq, true_and]
      · have differ : c ≠ p := fun equal => same equal.symm
        simp [after?, same, differ]

theorem after?_append (part rest : List Char) : after? part (part ++ rest) = some rest :=
  after?_eq_some.mpr rfl

theorem after?_other {p c : Char} (part text : List Char) (differ : c ≠ p) :
    after? (p :: part) (c :: text) = none := if_neg fun same => differ same.symm

theorem occurs_iff {part text : List Char} : occurs part text = true ↔ part <:+: text := by
  induction text with
  | nil => rw [occurs, List.isEmpty_iff, List.infix_nil]
  | cons c rest ih =>
    rw [occurs, Bool.or_eq_true, ih, List.infix_cons_iff, Option.isSome_iff_exists]
    simp only [after?_eq_some, List.prefix_iff_exists_eq_append]

theorem replaceFrom_skip (part replacement passed rest : List Char) :
    replaceFrom part replacement passed.length (passed ++ rest) =
      replaceFrom part replacement 0 rest := by
  induction passed with
  | nil => rfl
  | cons c passed ih => exact ih

theorem replaceFrom_pass (p : Char) (part replacement : List Char) {passed : List Char}
    (others : ∀ c ∈ passed, c ≠ p) (rest : List Char) :
    replaceFrom (p :: part) replacement 0 (passed ++ rest) =
      passed ++ replaceFrom (p :: part) replacement 0 rest := by
  induction passed with
  | nil => rfl
  | cons c passed ih =>
    rw [List.forall_mem_cons] at others
    rw [List.cons_append, replaceFrom, after?_other part _ others.1, ih others.2]
    rfl

theorem occurs_pass (p : Char) (part : List Char) {passed : List Char}
    (others : ∀ c ∈ passed, c ≠ p) (rest : List Char) :
    occurs (p :: part) (passed ++ rest) = occurs (p :: part) rest := by
  induction passed with
  | nil => rfl
  | cons c passed ih =>
    rw [List.forall_mem_cons] at others
    rw [List.cons_append, occurs, after?_other part _ others.1, ih others.2]
    rfl

theorem after?_break {part : List Char} {c : Char} (other : c ∉ part) (first rest : List Char) :
    (after? part (first ++ c :: rest)).isSome = (after? part first).isSome := by
  induction part generalizing first with
  | nil => rfl
  | cons p part ih =>
    rw [List.mem_cons, not_or] at other
    obtain ⟨differ, others⟩ := other
    cases first with
    | nil =>
      rw [List.nil_append, after?_other part rest differ]
      rfl
    | cons d first =>
      rw [List.cons_append, after?, after?]
      split
      · exact ih others first
      · rfl

/-- No occurrence goes over a character that the part does not have. -/
theorem occurs_break {part : List Char} (nonempty : part ≠ []) {c : Char} (other : c ∉ part)
    (first rest : List Char) :
    occurs part (first ++ c :: rest) = (occurs part first || occurs part rest) := by
  have none : occurs part [] = false := List.isEmpty_eq_false_iff.mpr nonempty
  induction first with
  | nil =>
    have apart := after?_break other [] rest
    have empty : (after? part []).isSome = false := by
      cases part with
      | nil => exact absurd rfl nonempty
      | cons p part => rfl
    rw [List.nil_append, empty] at apart
    rw [List.nil_append, occurs.eq_2, apart, none]
  | cons d first ih =>
    have here := after?_break other (d :: first) rest
    rw [List.cons_append] at here
    rw [List.cons_append, occurs, occurs, here, ih, Bool.or_assoc]

theorem before_same {part text : List Char} (none : occurs part text = false) :
    before part text = text := by
  induction text with
  | nil => rfl
  | cons c rest ih =>
    rw [occurs, Bool.or_eq_false_iff] at none
    rw [before, none.1, ih none.2]
    rfl

theorem before_prefix (part text : List Char) : before part text <+: text := by
  induction text with
  | nil => exact List.prefix_rfl
  | cons c rest ih =>
    rw [before]
    split
    · exact List.nil_prefix
    · exact List.cons_prefix_cons.mpr ⟨rfl, ih⟩

theorem before_split {part text : List Char} (found : occurs part text = true) :
    ∃ rest, text = before part text ++ (part ++ rest) := by
  induction text with
  | nil =>
    rw [occurs, List.isEmpty_iff] at found
    exact ⟨[], by rw [found]; rfl⟩
  | cons c rest ih =>
    rw [before]
    split
    · next here =>
      obtain ⟨later, split⟩ := Option.isSome_iff_exists.mp here
      refine ⟨later, ?_⟩
      rw [List.nil_append]
      exact after?_eq_some.mp split
    · next other =>
      rw [occurs, Bool.or_eq_true] at found
      obtain ⟨later, split⟩ := ih (found.resolve_left other)
      exact ⟨later, by rw [List.cons_append, ← split]⟩

theorem before_first {part front behind : List Char} (nonempty : part ≠ []) :
    (before part (front ++ (part ++ behind))).length ≤ front.length := by
  induction front with
  | nil =>
    have found := after?_append part behind
    cases part with
    | nil => exact absurd rfl nonempty
    | cons p part =>
      rw [List.cons_append] at found
      rw [List.nil_append, List.cons_append, before, found]
      exact Nat.le_refl _
  | cons c front ih =>
    rw [List.cons_append, before]
    split
    · exact Nat.zero_le _
    · exact Nat.succ_le_succ ih

/-- A part is looked for on this side of a character that it does not have. -/
theorem before_break {part : List Char} {c : Char} (other : c ∉ part) {first : List Char}
    (found : occurs part first = true) (nonempty : part ≠ []) (rest : List Char) :
    before part (first ++ c :: rest) = before part first := by
  induction first with
  | nil => exact absurd (List.isEmpty_iff.mp found) nonempty
  | cons d first ih =>
    have here := after?_break other (d :: first) rest
    rw [List.cons_append] at here
    rw [List.cons_append, before, before, here]
    split
    · rfl
    · next none =>
      rw [occurs, Bool.or_eq_true] at found
      rw [ih (found.resolve_left none)]

theorem occurs_before {part : List Char} (nonempty : part ≠ []) (text : List Char) :
    occurs part (before part text) = false := by
  induction text with
  | nil => exact List.isEmpty_eq_false_iff.mpr nonempty
  | cons c rest ih =>
    rw [before]
    split
    · exact List.isEmpty_eq_false_iff.mpr nonempty
    · next other =>
      have front : before part rest <+: rest := before_prefix part rest
      have absent : (after? part (c :: before part rest)).isSome = false := by
        rw [Bool.eq_false_iff]
        intro found
        obtain ⟨later, split⟩ := Option.isSome_iff_exists.mp found
        rw [after?_eq_some] at split
        obtain ⟨behind, whole⟩ := front
        apply other
        rw [Option.isSome_iff_exists]
        refine ⟨later ++ behind, after?_eq_some.mpr ?_⟩
        rw [← List.append_assoc, ← split, List.cons_append, whole]
      rw [occurs, absent, ih]
      rfl

theorem splitOn_same {separator : Char} {text : List Char} (none : separator ∉ text) :
    splitOn separator text = [text] := by
  induction text with
  | nil => rfl
  | cons c rest ih =>
    rw [List.mem_cons, not_or] at none
    rw [splitOn, if_neg fun same => none.1 same.symm, ih none.2]

end StructuredLog.Text
