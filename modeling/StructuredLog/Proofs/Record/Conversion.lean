import StructuredLog.Proofs.Binary64.Nearest
import StructuredLog.Proofs.Text.Digits
import StructuredLog.Proofs.Text.Hex
import StructuredLog.Record.Conversion

/-!
Fields by format. The letter after the first percent sign, with the lengths `l` and `L` in front of
it, decides which arguments are taken and what field they make; whatever else a format holds decides
nothing. A format or an argument that is refused leaves the fields as they are.
-/

namespace StructuredLog.Record

open Text (SpellsHex smallHex)

/-- The text of a document on one line, with a single quote for every double quote. -/
def inSingleQuotes (v : Json.Value) : String :=
  v.compact.map fun c => if c = '"' then '\x27' else c

theorem singleQuoted_eq (v : Json.Value) : singleQuoted v = inSingleQuotes v := by
  apply String.toList_injective
  rw [singleQuoted, inSingleQuotes, Json.Value.compact, String.toList_map, String.toList_ofList,
    String.toList_ofList]

namespace Conversion

def digits : List Char := "0123456789".toList

/-- What may stand between the percent sign and the letter: flags, width, precision and lengths. -/
def modifiers : List Char :=
  digits ++ (['-', '+', ' ', '#', '.', '*', '\x27', 'h', 'q', 'z', 't'] ++ ['l', 'L'])

/-- What a letter means where an `l` or an `L` was seen before it. -/
inductive Means (long longDouble : Bool) : Char → Conversion → Prop where
  | signed {c : Char} (letter : c ∈ ['d', 'i']) : Means long longDouble c (.signed long)
  | unsigned {c : Char} (letter : c ∈ ['o', 'u', 'x', 'X']) :
      Means long longDouble c (.unsigned long)
  | float {c : Char} (letter : c ∈ ['e', 'E', 'f', 'F', 'g', 'G', 'a', 'A']) :
      Means long longDouble c (.float longDouble)
  | string : Means long longDouble 's' (.string long)
  | pointer : Means long longDouble 'p' .pointer
  | json : Means long longDouble 'j' .json
  | percent : Means long longDouble '%' .percent
  | char : Means long longDouble 'c' .char

/-- A format specifies a conversion by its first percent sign, by modifiers in any number and order
and by a letter, with any text after it. -/
def Specifies (format : String) (c : Conversion) : Prop :=
  ∃ before between letter after,
    format.toList = before ++ '%' :: (between ++ letter :: after) ∧ '%' ∉ before ∧
      (∀ m ∈ between, m ∈ modifiers) ∧ Means (between.contains 'l') (between.contains 'L') letter c

theorem isDigit_iff (c : Char) : c.isDigit = true ↔ c ∈ digits := by
  have listed : ∀ place : Fin 10, Char.ofNat (48 + place) ∈ digits := by decide
  have all : ∀ d ∈ digits, d.isDigit = true := List.all_eq_true.mp rfl
  constructor
  · intro digit
    obtain ⟨least, most⟩ := Char.isDigit_iff_toNat.mp digit
    have low : '0'.toNat = 48 := rfl
    have high : '9'.toNat = 57 := rfl
    have found := listed ⟨c.toNat - 48, by omega⟩
    have code : 48 + (c.toNat - 48) = c.toNat := by omega
    rwa [code, Char.ofNat_toNat] at found
  · exact all c

theorem mem_modifiers (c : Char) : c ∈ modifiers ↔ isModifier c = true ∨ c = 'l' ∨ c = 'L' := by
  rw [modifiers, List.mem_append, List.mem_append, List.mem_pair, ← isDigit_iff, isModifier,
    Bool.or_eq_true, List.contains_iff_mem, or_assoc]

/-- Modifiers are read over, and only the two lengths among them are kept in mind. -/
theorem scan_between (long longDouble : Bool) {between : List Char}
    (only : ∀ m ∈ between, m ∈ modifiers) (rest : List Char) :
    scan long longDouble (between ++ rest) =
      scan (long || between.contains 'l') (longDouble || between.contains 'L') rest := by
  induction between generalizing long longDouble with
  | nil => simp only [List.nil_append, List.contains_nil, Bool.or_false]
  | cons m between ih =>
    rw [List.forall_mem_cons] at only
    obtain ⟨own, others⟩ := only
    rw [List.cons_append, scan, List.contains_cons, List.contains_cons]
    rcases (mem_modifiers m).mp own with plain | rfl | rfl
    · have noLong : ('l' == m) = false := by
        rw [beq_eq_false_iff_ne]
        rintro rfl
        exact absurd plain (by decide)
      have noDouble : ('L' == m) = false := by
        rw [beq_eq_false_iff_ne]
        rintro rfl
        exact absurd plain (by decide)
      rw [if_pos plain, ih long longDouble others, noLong, noDouble, Bool.false_or, Bool.false_or]
    · exact ih true longDouble others |>.trans (by simp)
    · exact ih long true others |>.trans (by simp)

theorem letters_read : ∀ long longDouble,
    (∀ c ∈ ['d', 'i'], ofLetter? long longDouble c = some (.signed long)) ∧
      (∀ c ∈ ['o', 'u', 'x', 'X'], ofLetter? long longDouble c = some (.unsigned long)) ∧
      ∀ c ∈ ['e', 'E', 'f', 'F', 'g', 'G', 'a', 'A'],
        ofLetter? long longDouble c = some (.float longDouble) := by
  simp [ofLetter?]

theorem ofLetter?_eq_some {long longDouble : Bool} {letter : Char} {c : Conversion} :
    ofLetter? long longDouble letter = some c ↔ Means long longDouble letter c := by
  constructor
  · unfold ofLetter?
    simp only [List.contains_iff_mem]
    split_ifs with percent signed unsigned float string pointer json char <;> rintro ⟨⟩
    · exact percent ▸ .percent
    · exact .signed signed
    · exact .unsigned unsigned
    · exact .float float
    · exact string ▸ .string
    · exact pointer ▸ .pointer
    · exact json ▸ .json
    · exact char ▸ .char
  · obtain ⟨signed, unsigned, float⟩ := letters_read long longDouble
    intro means
    cases means with
    | signed letter => exact signed _ letter
    | unsigned letter => exact unsigned _ letter
    | float letter => exact float _ letter
    | string => rfl
    | pointer => rfl
    | json => rfl
    | percent => rfl
    | char => rfl

theorem Means.letter {long longDouble : Bool} {letter : Char} {c : Conversion}
    (means : Means long longDouble letter c) : letter ∉ modifiers := by
  have apart : ∀ {letters : List Char}, letters.all (fun c => c ∉ modifiers) = true →
      ∀ c ∈ letters, c ∉ modifiers := by
    intro letters all c member
    exact of_decide_eq_true (List.all_eq_true.mp all c member)
  cases means with
  | signed letter => exact apart (by decide) _ letter
  | unsigned letter => exact apart (by decide) _ letter
  | float letter => exact apart (by decide) _ letter
  | string => decide
  | pointer => decide
  | json => decide
  | percent => decide
  | char => decide

theorem scan_letter {letter : Char} (other : letter ∉ modifiers) (long longDouble : Bool)
    (after : List Char) :
    scan long longDouble (letter :: after) = ofLetter? long longDouble letter := by
  rw [mem_modifiers, not_or, not_or] at other
  rw [scan, if_neg other.1, if_neg other.2.1, if_neg other.2.2]

theorem scan_eq_some {rest : List Char} {c : Conversion} :
    scan false false rest = some c ↔ ∃ between letter after, rest = between ++ letter :: after ∧
      (∀ m ∈ between, m ∈ modifiers) ∧
        Means (between.contains 'l') (between.contains 'L') letter c := by
  constructor
  · intro found
    have inside : ∀ m ∈ rest.takeWhile (· ∈ modifiers), m ∈ modifiers := by
      intro m member
      have holds := List.mem_takeWhile_imp member
      exact of_decide_eq_true holds
    have whole := rest.takeWhile_append_dropWhile (p := (· ∈ modifiers))
    cases left : rest.dropWhile (· ∈ modifiers) with
    | nil =>
      rw [← whole, left, scan_between _ _ inside] at found
      cases found
    | cons letter after =>
      have other : letter ∉ modifiers := by
        have stops := List.head?_dropWhile_not (· ∈ modifiers) rest
        rw [left] at stops
        exact of_decide_eq_false stops
      rw [← whole, left, scan_between _ _ inside, scan_letter other, Bool.false_or, Bool.false_or,
        ofLetter?_eq_some] at found
      exact ⟨_, letter, after, left ▸ whole.symm, inside, found⟩
  · rintro ⟨between, letter, after, rfl, only, means⟩
    rw [scan_between _ _ only, scan_letter means.letter, Bool.false_or, Bool.false_or]
    exact ofLetter?_eq_some.mpr means

theorem parse_eq_some {format : String} {c : Conversion} :
    parse format = some c ↔ Specifies format c := by
  constructor
  · intro found
    rw [parse] at found
    rcases Text.parted '%' format.toList with ⟨-, -, left⟩ | ⟨before, rest, whole, first, -, left⟩
    · rw [left] at found
      cases found
    · rw [left] at found
      obtain ⟨between, letter, after, rfl, only, means⟩ := scan_eq_some.mp found
      exact ⟨before, between, letter, after, whole, first, only, means⟩
  · rintro ⟨before, between, letter, after, spelled, first, only, means⟩
    rw [parse, spelled, (Text.run_before first _).2]
    exact scan_eq_some.mpr ⟨between, letter, after, rfl, only, means⟩

/-- The text around a conversion, and another one after it, decide nothing. -/
example : parse "size=%-08lli of %s" = some (.signed true) := by decide

inductive Takes : Conversion → Argument → Prop where
  | signed (long : Bool) (i : Int) : Takes (.signed long) (.int i)
  | unsigned (long : Bool) (i : Int) : Takes (.unsigned long) (.int i)
  | float (longDouble : Bool) (x : Binary64) : Takes (.float longDouble) (.float x)
  | floatOfInt (longDouble : Bool) (i : Int) : Takes (.float longDouble) (.int i)
  | string (wide : Bool) (s : String) : Takes (.string wide) (.str s)
  | pointer (address : UInt64) : Takes .pointer (.pointer address)
  | json (v : Json.Value) : Takes .json (.json v)
  | percent (argument : Argument) : Takes .percent argument
  | char (argument : Argument) : Takes .char argument

/-- Among the `2 ^ 32` numbers from a least one on, `j` alone has the low 32 bits of `i`. -/
structure Wraps (least i j : Int) : Prop where
  low : least ≤ j
  high : j < least + 2 ^ 32
  same : 2 ^ 32 ∣ j - i
  only : ∀ other, least ≤ other → other < least + 2 ^ 32 → 2 ^ 32 ∣ other - i → other = j

/-- What a conversion makes of an argument that it takes: a field, or none for a percent sign and a
character. -/
inductive Makes : Conversion → Argument → Option FieldValue → Prop where
  | longSigned (i : Int) : Makes (.signed true) (.int i) (some (.int i))
  | signed {i j : Int} (wraps : Wraps (-2 ^ 31) i j) :
      Makes (.signed false) (.int i) (some (.int j))
  | longUnsigned (i : Int) : Makes (.unsigned true) (.int i) (some (.int i))
  | unsigned {i j : Int} (wraps : Wraps 0 i j) : Makes (.unsigned false) (.int i) (some (.int j))
  | float (longDouble : Bool) (x : Binary64) :
      Makes (.float longDouble) (.float x) (some (.real x))
  | floatOfInt {longDouble : Bool} {i : Int} {x : Binary64}
      (near : |(i : ℚ)| < Binary64.overflow → Binary64.Nearest (decide (i < 0)) |(i : ℚ)| x) :
      Makes (.float longDouble) (.int i) (some (.real x))
  | string (wide : Bool) (s : String) : Makes (.string wide) (.str s) (some (.str s))
  | pointer {address : UInt64} {digits : List Char}
      (spells : SpellsHex smallHex 1 address.toNat digits) :
      Makes .pointer (.pointer address) (some (.str (String.ofList ('0' :: 'x' :: digits))))
  | json (v : Json.Value) : Makes .json (.json v) (some (.str (inSingleQuotes v)))
  | percent (argument : Argument) : Makes .percent argument none
  | char (argument : Argument) : Makes .char argument none

theorem Wraps.of_range {least i j : Int} (low : least ≤ j) (high : j < least + 2 ^ 32)
    (same : 2 ^ 32 ∣ j - i) : Wraps least i j := by
  refine ⟨low, high, same, ?_⟩
  intro other above below alike
  omega

theorem signed32_wraps (i : Int) : Wraps (-2 ^ 31) i (signed32 i) := by
  have bounds : -2 ^ 31 ≤ signed32 i ∧ signed32 i < 2 ^ 31 ∧ 2 ^ 32 ∣ signed32 i - i := by
    rw [signed32, Int.bmod_def]
    split <;> omega
  exact .of_range bounds.1 (by omega) bounds.2.2

theorem unsigned32_wraps (i : Int) : Wraps 0 i (unsigned32 i) := by
  unfold unsigned32
  exact .of_range (by omega) (by omega) (by omega)

theorem ofInt_nearest {i : Int} (below : |(i : ℚ)| < Binary64.overflow) :
    Binary64.Nearest (decide (i < 0)) |(i : ℚ)| (Binary64.ofInt i) := by
  have size : |(i : ℚ)| = (⟨i.natAbs, 1⟩ : Decimal.Quotient).value := by
    rw [Decimal.Quotient.value, Nat.cast_one, div_one, Nat.cast_natAbs, Int.cast_abs]
  by_cases zero : i = 0
  · subst zero
    rw [Int.cast_zero, abs_zero]
    exact Binary64.zero_nearest false le_rfl (by positivity)
  · rw [size] at below ⊢
    exact Binary64.ofQuotient_nearest ⟨Int.natAbs_pos.mpr zero, Nat.one_pos⟩ _ below

theorem takes_of_convert? {c : Conversion} {argument : Argument} {value : Option FieldValue}
    (made : c.convert? argument = some value) : Takes c argument := by
  unfold convert? at made
  split at made
  · exact .percent _
  · exact .char _
  · exact .signed _ _
  · exact .unsigned _ _
  · exact .float _ _
  · exact .floatOfInt _ _
  · exact .string _ _
  · exact .pointer _
  · exact .json _
  · cases made

theorem convert?_makes {c : Conversion} {argument : Argument} (takes : Takes c argument) :
    ∃ value, c.convert? argument = some value ∧ Makes c argument value := by
  cases takes with
  | signed long i =>
    cases long with
    | true => exact ⟨_, rfl, .longSigned i⟩
    | false => exact ⟨_, rfl, .signed (signed32_wraps i)⟩
  | unsigned long i =>
    cases long with
    | true => exact ⟨_, rfl, .longUnsigned i⟩
    | false => exact ⟨_, rfl, .unsigned (unsigned32_wraps i)⟩
  | float longDouble x => exact ⟨_, rfl, .float longDouble x⟩
  | floatOfInt longDouble i => exact ⟨_, rfl, .floatOfInt ofInt_nearest⟩
  | string wide s => exact ⟨_, rfl, .string wide s⟩
  | pointer address =>
    have joined : "0x" ++ String.ofList (Text.hexDigits address.toNat) =
        String.ofList ('0' :: 'x' :: Text.hexDigits address.toNat) := String.ofList_append.symm
    exact ⟨_, rfl, joined ▸ .pointer (Text.hexDigits_spells _)⟩
  | json v => exact ⟨_, rfl, singleQuoted_eq v ▸ .json v⟩
  | percent argument => exact ⟨_, rfl, .percent argument⟩
  | char argument => exact ⟨_, rfl, .char argument⟩

end Conversion

open Conversion (Specifies Takes Makes)

theorem pushFormatted_fits {format : String} {c : Conversion} {argument : Argument}
    (specifies : Specifies format c) (takes : Takes c argument) (fields : Fields) (key : String) :
    ∃ value, Makes c argument value ∧ fields.pushFormatted key format argument =
      (.ok (), fields ++ (value.map (key, ·)).toList) := by
  obtain ⟨value, made, makes⟩ := Conversion.convert?_makes takes
  refine ⟨value, makes, ?_⟩
  rw [Fields.pushFormatted, Conversion.parse_eq_some.mpr specifies,
    Option.bind_some, made]
  cases value with
  | none => exact congrArg (Except.ok (), ·) (List.append_nil fields).symm
  | some value => rfl

theorem pushFormatted_refused {format : String} {argument : Argument}
    (refused : ¬∃ c, Specifies format c ∧ Takes c argument) (fields : Fields) (key : String) :
    fields.pushFormatted key format argument = (.error (.formatMismatch key format), fields) := by
  have nothing : (Conversion.parse format).bind (·.convert? argument) = none := by
    rw [Option.bind_eq_none_iff]
    intro c found
    rw [Option.eq_none_iff_forall_ne_some]
    intro value made
    exact refused ⟨c, Conversion.parse_eq_some.mp found, Conversion.takes_of_convert? made⟩
  rw [Fields.pushFormatted, nothing]

/-- A format is read as the conversion that its first percent sign specifies, and no other format is
read. A field is refused, with the fields left as they are, exactly if there is no such conversion
or it does not take the argument; otherwise what the conversion makes is added at the end. -/
theorem pushFormatted_decided (fields : Fields) (key format : String) (argument : Argument) :
    (∀ c, Conversion.parse format = some c ↔ Specifies format c) ∧
      (fields.pushFormatted key format argument = (.error (.formatMismatch key format), fields) ↔
        ¬∃ c, Specifies format c ∧ Takes c argument) ∧
      ∀ c, Specifies format c → Takes c argument → ∃ value, Makes c argument value ∧
        fields.pushFormatted key format argument =
          (.ok (), fields ++ (value.map (key, ·)).toList) := by
  refine ⟨fun c => Conversion.parse_eq_some, ⟨?_, ?_⟩, ?_⟩
  · rintro refused ⟨c, specifies, takes⟩
    obtain ⟨value, -, added⟩ := pushFormatted_fits specifies takes fields key
    cases refused.symm.trans added
  · intro refused
    exact pushFormatted_refused refused fields key
  · intro c specifies takes
    exact pushFormatted_fits specifies takes fields key

end StructuredLog.Record
