import Mathlib.Data.List.TakeWhile
import StructuredLog.Proofs.Config.Comments

/-!
Blank texts and commented ones. A blank text holds no document, but is loaded as the empty object;
whether a text is blank is asked before its comments are taken out. So an object is loaded of a text
and of what is left of it alike, unless nothing but blanks is left of a text that was not blank.
-/

namespace StructuredLog.Config

open Text (isBlank occurs)

abbrev Blank (text : List Char) : Prop := ∀ c ∈ text, isBlank c = true

theorem trim_eq_nil {text : List Char} : Text.trim text = [] ↔ Blank text := by
  unfold Text.trim Text.trimLeft
  rw [List.reverse_eq_nil_iff, List.dropWhile_eq_nil_iff]
  constructor
  · intro back
    rw [Blank, ← List.takeWhile_append_dropWhile (p := isBlank) (l := text),
      List.forall_mem_append]
    exact ⟨fun c taken => List.mem_takeWhile_imp taken,
      fun c dropped => back c (List.mem_reverse.mpr dropped)⟩
  · intro blank c member
    exact blank c ((List.dropWhile_suffix _).subset (List.mem_reverse.mp member))

section Reading

variable {c : Char}

theorem not_digit_of_blank (blank : isBlank c = true) : Json.digit? c = none := by
  obtain ⟨span, known, low, high⟩ := (Text.inSpans_iff _ c).mp blank
  refine if_neg fun digit => ?_
  have range := Char.isDigit_iff_toNat.mp digit
  have apart : ∀ span ∈ Text.blankSpans, span.2 < '0'.toNat ∨ '9'.toNat < span.1 := by decide
  rcases apart span known with below | above <;> omega

theorem beginValue_blank (blank : isBlank c = true) :
    Json.beginValue [] c = Json.stopAt .noValue := by
  unfold Json.beginValue
  split
  case h_9 =>
    rw [not_digit_of_blank blank]
  all_goals exact absurd blank (by decide)

theorem readFrom_blank {text : List Char} (blank : Blank text) (position : Json.Position) :
    ∃ e, Json.readFrom ⟨[], .value⟩ position text = .error e ∧
      (e.fault = .endInValue ∨ e.fault = .noValue) := by
  induction text generalizing position with
  | nil => exact ⟨_, rfl, .inl rfl⟩
  | cons c rest ih =>
    rw [Blank, List.forall_mem_cons] at blank
    by_cases space : Json.isSpace c = true
    · have step : (⟨[], .value⟩ : Json.State).step c = .ok ⟨[], .value⟩ := if_pos space
      rw [Json.readFrom, step]
      exact ih blank.2 _
    · have step : (⟨[], .value⟩ : Json.State).step c = Json.stopAt .noValue :=
        (if_neg space).trans (beginValue_blank blank.1)
      rw [Json.readFrom, step]
      exact ⟨_, rfl, .inr rfl⟩

end Reading

section Loading

theorem unmarked_of_blank {text : List Char} (blank : Blank text) :
    occurs commentMark text = false := by
  rw [unmarked_iff]
  intro inside
  exact absurd (blank '#' (inside.subset List.mem_cons_self)) (by decide)

theorem loadObject_blank {text : String} (blank : Blank text.toList) (source : String) :
    loadObject text source = .ok [] :=
  if_pos (List.isEmpty_iff.mpr (trim_eq_nil.mpr blank))

theorem loadObject_shown {text : String} (shown : ¬Blank text.toList) (source : String) :
    loadObject text source =
      (parse source (stripComments text.toList)).bind (toObject source) :=
  if_neg fun empty => shown (trim_eq_nil.mp (List.isEmpty_iff.mp empty))

theorem parse_blank {text : List Char} (blank : Blank text) (source : String) :
    ∃ e, parse source text = .error (.badSource source (.badText e)) ∧
      (e.fault = .endInValue ∨ e.fault = .noValue) := by
  obtain ⟨e, failed, fault⟩ := readFrom_blank blank .start
  refine ⟨e, ?_, fault⟩
  rw [parse, Json.read, failed]

/-- An object is loaded of a text as of what is left of it without its comments. The exception is a
text of comments and blanks that is not blank itself: it is refused, for there is no document in
what is left, which alone would be the empty object. -/
theorem loadObject_stripped (text source : String) :
    ∃ bare : String, readStripped (Text.bytes text) = .ok bare.toList ∧
      ((Blank text.toList ∨ ¬Blank bare.toList) ∧
          loadObject text source = loadObject bare source ∨
        ¬Blank text.toList ∧ Blank bare.toList ∧ loadObject bare source = .ok [] ∧
          ∃ e, loadObject text source = .error (.badSource source (.badText e)) ∧
            (e.fault = .endInValue ∨ e.fault = .noValue)) := by
  refine ⟨String.ofList (stripComments text.toList), ?_, ?_⟩
  · rw [String.toList_ofList, Text.bytes, readStripped_encode]
  by_cases blank : Blank text.toList
  · rw [stripComments_same (unmarked_of_blank blank), String.ofList_toList]
    exact .inl ⟨.inl blank, rfl⟩
  by_cases left : Blank (stripComments text.toList)
  · have nothing : Blank (String.ofList (stripComments text.toList)).toList := by
      rwa [String.toList_ofList]
    obtain ⟨e, failed, fault⟩ := parse_blank left source
    refine .inr ⟨blank, nothing, loadObject_blank nothing source, e, ?_, fault⟩
    rw [loadObject_shown blank, failed]
    rfl
  · have shown : ¬Blank (String.ofList (stripComments text.toList)).toList := by
      rwa [String.toList_ofList]
    refine .inl ⟨.inr shown, ?_⟩
    rw [loadObject_shown blank, loadObject_shown shown, String.toList_ofList, stripComments_again]

/-- A text that is all comment is refused, although nothing is left of it. -/
theorem loadObject_all_comment :
    ¬∀ text source bare : String, readStripped (Text.bytes text) = .ok bare.toList →
      (∃ members, loadObject text source = .ok members ∧ loadObject bare source = .ok members) ∨
        ∃ e f, loadObject text source = .error e ∧ loadObject bare source = .error f := by
  intro alike
  have nothing : readStripped (Text.bytes "#^^ c") = .ok "".toList := readStripped_encode _
  have empty : loadObject "" "obj" = .ok [] := rfl
  have refused : loadObject "#^^ c" "obj" =
      .error (.badSource "obj" (.badText ⟨.endInValue, ⟨1, 0⟩⟩)) := rfl
  rcases alike "#^^ c" "obj" "" nothing with ⟨members, loaded, -⟩ | ⟨e, f, -, failed⟩
  · rw [refused] at loaded
    cases loaded
  · rw [empty] at failed
    cases failed

end Loading

end StructuredLog.Config
