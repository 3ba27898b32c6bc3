import StructuredLog.Config.Pattern
import StructuredLog.Proofs.Text.Search

/-!
Names between marks. A name is as short as it can be: behind its first character there is no closing
mark in it, so a name is never the place of another name.
-/

namespace StructuredLog.Config.Marks

/-- A name with at least one character that goes on to the first closing mark behind it. -/
structure Shortest (closing name : List Char) : Prop where
  nonempty : name ≠ []
  early : ∀ before after, name = before ++ (closing ++ after) → before = []

theorem nameBefore_some {closing : List Char} (closes : closing ≠ []) {started : Bool}
    {text name following : List Char}
    (found : nameBefore closing started text = some (name, following)) :
    text = name ++ (closing ++ following) ∧ (started = false → name ≠ []) ∧
      ∀ before after, name = before ++ (closing ++ after) → before = [] ∧ started = false := by
  induction text generalizing started name with
  | nil => cases found
  | cons c rest ih =>
    rw [nameBefore] at found
    split at found
    · next behind ends =>
      cases found
      cases started with
      | false => cases ends
      | true =>
        have text : c :: rest = closing ++ following := Text.after?_eq_some.mp ends
        refine ⟨text, fun same => absurd same (by decide), ?_⟩
        intro before after same
        have empty := (List.append_eq_nil_iff.mp same.symm).2
        exact absurd (List.append_eq_nil_iff.mp empty).1 closes
    · next goesOn =>
      split at found
      · cases found
      · obtain ⟨⟨later, behind⟩, inner, same⟩ := Option.map_eq_some_iff.mp found
        cases same
        obtain ⟨text, -, early⟩ := ih inner
        refine ⟨by rw [text, List.cons_append], fun _ => List.cons_ne_nil _ _, ?_⟩
        intro before after cut
        cases before with
        | nil =>
          -- The closing mark would have ended the name before its first character.
          refine ⟨rfl, ?_⟩
          cases started with
          | false => rfl
          | true =>
            have front : c :: rest = closing ++ (after ++ (closing ++ following)) := by
              rw [text, ← List.cons_append, cut, List.nil_append, List.append_assoc]
            have ends : Text.after? closing (c :: rest) = none := goesOn
            rw [front, Text.after?_append] at ends
            cases ends
        | cons d before =>
          obtain ⟨-, rest⟩ := List.cons.inj (cut.trans (List.cons_append ..))
          cases (early before after rest).2

variable {marks : Marks}

theorem firstName_some (closes : marks.closing ≠ []) {text name : List Char}
    (found : marks.firstName text = some name) :
    Shortest marks.closing name ∧
      ∃ before following, text = before ++ (marks.around name ++ following) := by
  induction text with
  | nil => cases found
  | cons c rest ih =>
    rw [firstName] at found
    split at found
    · next own following here =>
      cases found
      obtain ⟨inner, opens, ends⟩ := Option.bind_eq_some_iff.mp here
      obtain ⟨inside, nonempty, early⟩ := nameBefore_some closes ends
      refine ⟨⟨nonempty rfl, fun before after cut => (early before after cut).1⟩, [], following, ?_⟩
      rw [Text.after?_eq_some.mp opens, inside, around]
      simp only [List.nil_append, List.append_assoc]
    · obtain ⟨shortest, before, following, text⟩ := ih found
      exact ⟨shortest, c :: before, following, congrArg (c :: ·) text⟩

theorem firstName_name (closes : marks.closing ≠ []) {text name : List Char}
    (found : marks.firstName text = some name) : marks.firstName name = none := by
  cases again : marks.firstName name with
  | none => rfl
  | some inner =>
    have shortest := (firstName_some closes found).1
    obtain ⟨own, before, following, text⟩ := firstName_some closes again
    have early : before ++ (marks.opening ++ inner) = [] := by
      apply shortest.early _ following
      rw [text, around]
      simp only [List.append_assoc]
    have none := (List.append_eq_nil_iff.mp (List.append_eq_nil_iff.mp early).2).2
    exact absurd none own.nonempty

end StructuredLog.Config.Marks
