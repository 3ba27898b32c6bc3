import StructuredLog.Json.Escape
import StructuredLog.Json.Number
import StructuredLog.Proofs.Binary64.Text

/-!
What is written can be read: strings with their escapes, and whole numbers.
-/

namespace StructuredLog.Json

theorem code_of_control (n : Nat) (control : n < 0x20) :
    code? '0' '0' (hexDigit (n / 16)) (hexDigit (n % 16)) = some n := by
  have all : ∀ i : Fin 32, code? '0' '0' (hexDigit (i / 16)) (hexDigit (i % 16)) = some i.val := by
    decide
  exact all ⟨n, control⟩

theorem hexDigit_shown (n : Nat) (small : n < 16) : 0x20 ≤ (hexDigit n).toNat := by
  have all : ∀ i : Fin 16, 0x20 ≤ (hexDigit i).toNat := by decide
  exact all ⟨n, small⟩

/-- A character has an escape of one letter, or it is a control given by its code, or it stands for
itself. -/
theorem escapeChar_cases (c : Char) :
    (∃ l, escapeChar c = ['\\', l] ∧ escapeLetter? l = some c ∧ 0x20 ≤ l.toNat) ∨
      (c.toNat < 0x20 ∧ escapeChar c =
        ['\\', 'u', '0', '0', hexDigit (c.toNat / 16), hexDigit (c.toNat % 16)]) ∨
      escapeChar c = [c] ∧ c ≠ '"' ∧ c ≠ '\\' ∧ 0x20 ≤ c.toNat := by
  unfold escapeChar
  split
  · next same => exact .inl ⟨'"', rfl, congrArg some same.symm, by decide⟩
  split
  · next same => exact .inl ⟨'\\', rfl, congrArg some same.symm, by decide⟩
  split
  · next same => exact .inl ⟨'b', rfl, congrArg some same.symm, by decide⟩
  split
  · next same => exact .inl ⟨'f', rfl, congrArg some same.symm, by decide⟩
  split
  · next same => exact .inl ⟨'n', rfl, congrArg some same.symm, by decide⟩
  split
  · next same => exact .inl ⟨'r', rfl, congrArg some same.symm, by decide⟩
  split
  · next same => exact .inl ⟨'t', rfl, congrArg some same.symm, by decide⟩
  split
  · next control => exact .inr (.inl ⟨control, rfl⟩)
  · next quote escape _ _ _ _ _ shown => exact .inr (.inr ⟨rfl, quote, escape, by omega⟩)

theorem escapeChar_reads (c : Char) {s text rest : List Char} (more : Chars s text rest) :
    Chars (c :: s) (escapeChar c ++ text) rest := by
  rcases escapeChar_cases c with
    ⟨l, same, known, _⟩ | ⟨control, same⟩ | ⟨same, quote, escape, shown⟩
  · rw [same]
    exact .letter known more
  · have read := Chars.code (code_of_control c.toNat control) (.inl (by omega)) more
    rw [Char.ofNat_toNat] at read
    rw [same]
    exact read
  · rw [same]
    exact .plain quote escape shown more

theorem escape_reads (s rest : List Char) : Chars s (escape s ++ '"' :: rest) rest := by
  induction s with
  | nil => exact .close rest
  | cons c others ih =>
    rw [escape, List.flatMap_cons, List.append_assoc]
    exact escapeChar_reads c ih

theorem stringText_reads (s : String) (rest : List Char) :
    ∃ inside, stringText s ++ rest = '"' :: inside ∧ Chars s.toList inside rest := by
  refine ⟨escape s.toList ++ '"' :: rest, ?_, escape_reads s.toList rest⟩
  rw [stringText, List.cons_append, List.cons_append, List.append_assoc, List.singleton_append]

theorem escapeChar_shown (c : Char) : ∀ e ∈ escapeChar c, 0x20 ≤ e.toNat := by
  rcases escapeChar_cases c with ⟨l, same, _, shown⟩ | ⟨control, same⟩ | ⟨same, _, _, shown⟩
  · intro e member
    rw [same, List.mem_cons, List.mem_singleton] at member
    rcases member with rfl | rfl
    · decide
    · exact shown
  · have high := hexDigit_shown (c.toNat / 16) (by omega)
    have low := hexDigit_shown (c.toNat % 16) (by omega)
    intro e member
    simp only [same, List.mem_cons, List.not_mem_nil, or_false] at member
    rcases member with rfl | rfl | rfl | rfl | rfl | rfl
    · decide
    · decide
    · decide
    · decide
    · exact high
    · exact low
  · rw [same]
    exact List.forall_mem_singleton.mpr shown

theorem stringText_shown (s : String) : ∀ c ∈ stringText s, 0x20 ≤ c.toNat := by
  intro c member
  simp only [stringText, escape, List.cons_append, List.mem_cons, List.mem_append,
    List.mem_flatMap, List.not_mem_nil, or_false] at member
  rcases member with rfl | ⟨original, _, escaped⟩ | rfl
  · decide
  · exact escapeChar_shown original c escaped
  · decide

/-- A character that stands for itself between quotes. -/
def Unescaped (c : Char) : Prop := c ≠ '"' ∧ c ≠ '\\' ∧ 0x20 ≤ c.toNat

theorem escapeChar_unescaped {c : Char} (plain : Unescaped c) : escapeChar c = [c] := by
  obtain ⟨quote, backslash, shown⟩ := plain
  have visible : ¬c.toNat < 0x20 := by omega
  have controls : c ≠ '\x08' ∧ c ≠ '\x0c' ∧ c ≠ '\n' ∧ c ≠ '\r' ∧ c ≠ '\t' := by
    refine ⟨?_, ?_, ?_, ?_, ?_⟩ <;>
      · rintro rfl
        exact visible (by decide)
  simp only [escapeChar, quote, backslash, controls, visible, ↓reduceIte]

theorem escape_unescaped {text : List Char} (plain : ∀ c ∈ text, Unescaped c) :
    escape text = text := by
  induction text with
  | nil => rfl
  | cons c rest ih =>
    rw [List.forall_mem_cons] at plain
    rw [escape, List.flatMap_cons, escapeChar_unescaped plain.1, ← escape, ih plain.2]
    rfl

theorem escape_append (first second : List Char) :
    escape (first ++ second) = escape first ++ escape second :=
  List.flatMap_append

theorem toDigits_whole (n : Nat) : IsWhole (Nat.toDigits 10 n) := by
  refine ⟨⟨Nat.toDigits_ne_nil, Text.toDigits_isDigit n⟩, ?_⟩
  by_cases zero : n = 0
  · rw [zero]
    exact .inl rfl
  · exact .inr (Text.toDigits_head (Nat.pos_of_ne_zero zero))

theorem intText_number (i : Int) : IsNumber (intText i) := by
  refine ⟨if i < 0 then ['-'] else [], _, [], [], ?_, ?_, toDigits_whole i.natAbs, .inl rfl,
    .inl rfl⟩
  · simp only [intText, List.append_nil]
  · split
    · exact .inr rfl
    · exact .inl rfl

theorem intText_value (i : Int) : Binary64.wholeNumber? (intText i) = some i := by
  have whole := toDigits_whole i.natAbs
  have value := Text.digitsValue_toDigits i.natAbs
  unfold intText
  generalize Nat.toDigits 10 i.natAbs = digits at whole value
  have split : Binary64.splitSign ((if i < 0 then ['-'] else []) ++ digits) =
      (decide (i < 0), digits) := by
    cases digits with
    | nil => exact absurd rfl whole.1.1
    | cons c more =>
      have signed := Binary64.splitSign_digit (whole.1.2 c List.mem_cons_self) more
        (decide (i < 0))
      simp only [decide_eq_true_eq] at signed
      exact signed
  rw [Decimal.wholeNumber?_split split whole.1, value, Option.some.injEq]
  simp only [decide_eq_true_eq]
  split <;> omega

theorem numeral_shown {c : Char} (numeral : isNumeral c = true) : 0x20 ≤ c.toNat := by
  rw [isNumeral, Bool.or_eq_true] at numeral
  rcases numeral with digit | other
  · have range := Char.isDigit_iff_toNat.mp digit
    have zero : '0'.toNat = 48 := rfl
    omega
  · simp only [List.contains_cons, List.contains_nil, Bool.or_eq_true, beq_iff_eq,
      Bool.false_eq_true, or_false] at other
    rcases other with rfl | rfl | rfl | rfl | rfl <;> decide

end StructuredLog.Json
