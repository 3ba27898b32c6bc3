import StructuredLog.Proofs.Json.Respelling
import StructuredLog.Proofs.Text.Search

/-!
What can be found in the text of a document on one line: a part that has none of the characters of
the notation occurs only where it occurs in a string or a key.
-/

namespace StructuredLog.Json

open Text (after? occurs)

/-- The characters of the notation: those around strings, those of numbers and words, and those that
escapes are made of. -/
def isNotation (c : Char) : Bool :=
  c.isAlphanum || ['"', '\\', '/', '{', '}', '[', ']', ',', ':', '-', '+', '.'].contains c

structure Foreign (part : List Char) : Prop where
  nonempty : part ≠ []
  outside : ∀ c ∈ part, isNotation c = false

theorem numeral_notation {c : Char} (numeral : isNumeral c = true) : isNotation c = true := by
  rw [isNumeral, Bool.or_eq_true] at numeral
  rw [isNotation, Bool.or_eq_true]
  rcases numeral with digit | other
  · left
    rw [Char.isAlphanum, digit, Bool.or_true]
  · simp only [List.contains_cons, List.contains_nil, Bool.or_eq_true, beq_iff_eq,
      Bool.false_eq_true, or_false] at other
    rcases other with rfl | rfl | rfl | rfl | rfl <;> decide

/-- What a character is written as is an escape of the notation, or the character. -/
theorem escapeChar_notation (c : Char) :
    (∃ more, escapeChar c = '\\' :: more ∧ ('\\' :: more).all isNotation = true) ∨
      escapeChar c = [c] := by
  have digits : ∀ i : Fin 16, isNotation (hexDigit i) = true := by decide
  rcases escapeChar_cases c with ⟨l, same, known, -⟩ | ⟨control, same⟩ | ⟨same, -⟩
  · have letter : isNotation l = true := by
      unfold escapeLetter? at known
      split at known <;> first | rfl | cases known
    refine .inl ⟨[l], same, ?_⟩
    rw [List.all_cons, List.all_cons, letter]
    rfl
  · have high := digits ⟨c.toNat / 16, by omega⟩
    have low := digits ⟨c.toNat % 16, by omega⟩
    refine .inl ⟨_, same, ?_⟩
    simp only [List.all_cons, high, low]
    rfl
  · exact .inr same

namespace Foreign

variable {part : List Char}

theorem absent (foreign : Foreign part) {c : Char} (known : isNotation c = true) : c ∉ part := by
  intro member
  rw [foreign.outside c member] at known
  cases known

theorem pass (foreign : Foreign part) {passed : List Char}
    (known : passed.all isNotation = true) (rest : List Char) :
    occurs part (passed ++ rest) = occurs part rest := by
  cases part with
  | nil => exact absurd rfl foreign.nonempty
  | cons p part =>
    apply Text.occurs_pass
    rintro c member rfl
    exact foreign.absent (List.all_eq_true.mp known c member) List.mem_cons_self

theorem after?_escape (foreign : ∀ c ∈ part, isNotation c = false) {s : List Char}
    (found : (after? part (escape s)).isSome = true) : (after? part s).isSome = true := by
  induction part generalizing s with
  | nil => rfl
  | cons p part ih =>
    rw [List.forall_mem_cons] at foreign
    cases s with
    | nil => exact found
    | cons c s =>
      rw [escape, List.flatMap_cons] at found
      rcases escapeChar_notation c with ⟨more, same, known⟩ | same
      · -- The part would have to begin with the backslash.
        have other : '\\' ≠ p := by
          rintro rfl
          cases foreign.1
        rw [same, List.cons_append, Text.after?_other part _ other] at found
        cases found
      · rw [same, List.singleton_append, after?] at found
        rw [after?]
        split at found
        · next equal =>
          rw [if_pos equal]
          exact ih foreign.2 found
        · cases found

theorem occurs_escape (foreign : Foreign part) {s : List Char} (none : occurs part s = false) :
    occurs part (escape s) = false := by
  induction s with
  | nil => exact none
  | cons c s ih =>
    rw [occurs, Bool.or_eq_false_iff] at none
    have later := ih none.2
    rcases escapeChar_notation c with ⟨more, same, known⟩ | same
    · rw [escape, List.flatMap_cons, same, foreign.pass known]
      exact later
    · have text : escape (c :: s) = c :: escape s := by
        rw [escape, List.flatMap_cons, same, escape, List.singleton_append]
      have here : (after? part (c :: escape s)).isSome = false := by
        rw [← Bool.not_eq_true, ← text]
        intro found
        rw [after?_escape foreign.outside found] at none
        cases none.1
      rw [text, occurs, here, later]
      rfl

theorem string_pass (foreign : Foreign part) {s : String} (none : occurs part s.toList = false)
    (rest : List Char) : occurs part (stringText s ++ rest) = occurs part rest := by
  have text : stringText s ++ rest = ['"'] ++ (escape s.toList ++ '"' :: rest) := by
    simp [stringText]
  rw [text, foreign.pass rfl, Text.occurs_break foreign.nonempty (foreign.absent rfl),
    foreign.occurs_escape none, Bool.false_or]

theorem items_pass (foreign : Foreign part) {items : List Value}
    (each : ∀ v ∈ items, ∀ rest, occurs part (v.text .compact ++ rest) = occurs part rest)
    (rest : List Char) :
    occurs part (itemsText .compact items ++ rest) = occurs part rest := by
  induction items with
  | nil => rfl
  | cons v others ih =>
    rw [List.forall_mem_cons] at each
    rw [itemsText, Style.gap, List.nil_append, List.append_assoc, each.1]
    cases others with
    | nil => rfl
    | cons next more =>
      have comma : [','].all isNotation = true := rfl
      have passed := foreign.pass comma (itemsText .compact (next :: more) ++ rest)
      exact passed.trans (ih each.2)

theorem members_pass (foreign : Foreign part) {members : List (String × Value)}
    (keys : ∀ entry ∈ members, occurs part entry.1.toList = false)
    (each : ∀ entry ∈ members, ∀ rest,
      occurs part (entry.2.text .compact ++ rest) = occurs part rest) (rest : List Char) :
    occurs part (membersText .compact members ++ rest) = occurs part rest := by
  induction members with
  | nil => rfl
  | cons entry others ih =>
    rcases entry with ⟨key, v⟩
    rw [List.forall_mem_cons] at keys each
    rw [membersText, Style.gap, Style.afterKey, List.nil_append, List.append_assoc,
      List.append_assoc, List.append_assoc, foreign.string_pass keys.1, foreign.pass rfl, each.1]
    cases others with
    | nil => rfl
    | cons next more =>
      have comma : [','].all isNotation = true := rfl
      have passed := foreign.pass comma (membersText .compact (next :: more) ++ rest)
      exact passed.trans (ih keys.2 each.2)

/-- A part that is in no string and in no key is not in the text of a document, and none begins
there. -/
theorem text_pass (foreign : Foreign part) {v : Value} (whole : v.Whole)
    (spelled : v.Spelled fun s => occurs part s.toList = false) (rest : List Char) :
    occurs part (v.text .compact ++ rest) = occurs part rest := by
  induction spelled generalizing rest with
  | null => exact foreign.pass rfl rest
  | bool b => cases b <;> exact foreign.pass rfl rest
  | num n =>
    cases whole with
    | integer n =>
      have numerals : (intText n.val).all isNotation = true :=
        List.all_eq_true.mpr fun c member =>
          numeral_notation ((intText_number n.val).numeral c member)
      exact foreign.pass numerals rest
  | str own => exact foreign.string_pass own rest
  | @arr items each ih =>
    cases whole with
    | arr wholes =>
      by_cases empty : items = []
      · subst empty
        have brackets : ['[', ']'].all isNotation = true := rfl
        exact foreign.pass brackets rest
      · have inner := foreign.items_pass fun v member => ih v member (wholes v member)
        rw [text_arr empty, List.append_assoc, ← List.singleton_append, List.append_assoc,
          foreign.pass rfl, inner, foreign.pass rfl]
  | @obj members keys each ih =>
    cases whole with
    | obj wholes =>
      by_cases empty : members = []
      · subst empty
        have braces : ['{', '}'].all isNotation = true := rfl
        exact foreign.pass braces rest
      · have inner := foreign.members_pass keys fun entry member =>
          ih entry member (wholes entry member)
        rw [text_obj empty, List.append_assoc, ← List.singleton_append, List.append_assoc,
          foreign.pass rfl, inner, foreign.pass rfl]

end Foreign

end StructuredLog.Json
