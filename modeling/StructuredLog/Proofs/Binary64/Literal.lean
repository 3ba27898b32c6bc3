import StructuredLog.Proofs.Binary64.Nearest

/-!
What texts are read as numbers. A text that writes a decimal is read as the number nearest to it,
or as infinity from half a unit past the greatest finite number on; the words for infinity and for
no number are read as these; no other text is read.
-/

namespace StructuredLog.Binary64

open Decimal
open Json (IsDigits)
open Text (digitsValue)

inductive IsSign : Bool → List Char → Prop where
  | absent : IsSign false []
  | plus : IsSign false ['+']
  | minus : IsSign true ['-']

def WritesInt (text : List Char) (i : Int) : Prop :=
  ∃ negative sign digits, text = sign ++ digits ∧ IsSign negative sign ∧ IsDigits digits ∧
    i = if negative then -(digitsValue digits : Int) else digitsValue digits

inductive WritesExponent : List Char → Int → Prop where
  | absent : WritesExponent [] 0
  | present {mark : Char} {text : List Char} {power : Int} (marks : mark = 'e' ∨ mark = 'E')
      (writes : WritesInt text power) : WritesExponent (mark :: text) power

inductive IsAfterPoint : List Char → List Char → Prop where
  | absent : IsAfterPoint [] []
  | present {digits : List Char} (only : ∀ c ∈ digits, c.isDigit = true) :
      IsAfterPoint ('.' :: digits) digits

/-- A text that writes a decimal: digits, perhaps a point among or around them, and an exponent. -/
def WritesScaled (text : List Char) (s : Scaled) : Prop :=
  ∃ whole point fraction exponent power, text = whole ++ (point ++ exponent) ∧
    (∀ c ∈ whole, c.isDigit = true) ∧ IsAfterPoint point fraction ∧
    (whole ≠ [] ∨ fraction ≠ []) ∧ WritesExponent exponent power ∧
    s = ⟨digitsValue (whole ++ fraction), power - (fraction.length : Nat)⟩

def WritesDecimal (text : List Char) (negative : Bool) (worth : ℚ) : Prop :=
  ∃ sign digits s, text = sign ++ digits ∧ IsSign negative sign ∧ WritesScaled digits s ∧
    s.value = worth

/-- One of the words for what is not finite, in any letter case and with a sign or none. -/
def IsWord (text : List Char) : Prop :=
  ∃ negative sign letters, text = sign ++ letters ∧ IsSign negative sign ∧
    letters.map Char.toLower ∈ ["inf".toList, "infinity".toList, "nan".toList]

theorem splitSign_isSign (text : List Char) :
    ∃ sign, text = sign ++ (splitSign text).2 ∧ IsSign (splitSign text).1 sign := by
  unfold splitSign
  split
  · exact ⟨['-'], rfl, .minus⟩
  · exact ⟨['+'], rfl, .plus⟩
  · exact ⟨[], rfl, .absent⟩

theorem splitSign_unsigned {c : Char} (minus : c ≠ '-') (plus : c ≠ '+') (rest : List Char) :
    splitSign (c :: rest) = (false, c :: rest) := by
  unfold splitSign
  split
  · next same =>
    cases same
    exact absurd rfl minus
  · next same =>
    cases same
    exact absurd rfl plus
  · rfl

theorem IsSign.split {negative : Bool} {sign : List Char} (signs : IsSign negative sign) {c : Char}
    (minus : c ≠ '-') (plus : c ≠ '+') (rest : List Char) :
    splitSign (sign ++ c :: rest) = (negative, c :: rest) := by
  cases signs with
  | absent => exact splitSign_unsigned minus plus rest
  | plus => rfl
  | minus => rfl

theorem digit_unsigned {c : Char} (digit : c.isDigit = true) : c ≠ '-' ∧ c ≠ '+' := by
  constructor <;> rintro rfl <;> cases digit

theorem wholeNumber?_eq_some {text : List Char} {i : Int} :
    wholeNumber? text = some i ↔ WritesInt text i := by
  constructor
  · intro reads
    obtain ⟨sign, whole, signs⟩ := splitSign_isSign text
    simp only [wholeNumber?] at reads
    split at reads
    · cases reads
    · next digits =>
      rw [Bool.or_eq_true, List.isEmpty_iff, Bool.not_eq_true', not_or, Bool.not_eq_false,
        List.all_eq_true] at digits
      exact ⟨_, sign, _, whole, signs, digits, (Option.some.inj reads).symm⟩
  · rintro ⟨negative, sign, digits, rfl, signs, only, rfl⟩
    cases digits with
    | nil => exact absurd rfl only.1
    | cons c more =>
      obtain ⟨minus, plus⟩ := digit_unsigned (only.2 c List.mem_cons_self)
      exact wholeNumber?_split (signs.split minus plus more) only

theorem exponent?_eq_some {text : List Char} {power : Int} :
    exponent? text = some power ↔ WritesExponent text power := by
  constructor
  · intro reads
    cases text with
    | nil =>
      cases reads
      exact .absent
    | cons mark rest =>
      obtain ⟨marks, reads⟩ := Option.ite_none_right_eq_some.mp reads
      exact .present marks (wholeNumber?_eq_some.mp reads)
  · intro writes
    cases writes with
    | absent => rfl
    | present marks writes => exact (if_pos marks).trans (wholeNumber?_eq_some.mpr writes)

theorem WritesExponent.ends {text : List Char} {power : Int} (writes : WritesExponent text power) :
    (∀ c, text.head? = some c → c.isDigit = false) ∧ text.head? ≠ some '.' := by
  cases writes with
  | absent => exact ⟨nofun, nofun⟩
  | present marks writes =>
    rcases marks with rfl | rfl
    · exact ⟨by rintro _ ⟨⟩; rfl, fun same => absurd (Option.some.inj same) (by decide)⟩
    · exact ⟨by rintro _ ⟨⟩; rfl, fun same => absurd (Option.some.inj same) (by decide)⟩

theorem decimal?_eq {whole point fraction rest : List Char}
    (wholes : ∀ c ∈ whole, c.isDigit = true) (points : IsAfterPoint point fraction)
    (ends : ∀ c, rest.head? = some c → c.isDigit = false)
    (pointless : point = [] → rest.head? ≠ some '.') :
    decimal? (whole ++ (point ++ rest)) =
      if whole.isEmpty && fraction.isEmpty then none
      else (exponent? rest).map fun power =>
        ⟨digitsValue (whole ++ fraction), power - (fraction.length : Nat)⟩ := by
  cases points with
  | absent =>
    obtain ⟨taken, dropped⟩ := Text.run_taken wholes ends
    rw [List.nil_append]
    simp only [decimal?, taken, dropped]
    split
    · next rest => exact absurd rfl (pointless rfl)
    · rfl
  | present only =>
    obtain ⟨inner, after⟩ := Text.run_taken only ends
    have point : ∀ c, ('.' :: (fraction ++ rest)).head? = some c → c.isDigit = false := by
      rintro c ⟨⟩
      rfl
    obtain ⟨taken, dropped⟩ := Text.run_taken wholes point
    rw [List.cons_append]
    simp only [decimal?, taken, dropped, inner, after]

theorem decimal_parts (text : List Char) : ∃ whole point fraction rest,
    text = whole ++ (point ++ rest) ∧ (∀ c ∈ whole, c.isDigit = true) ∧
      IsAfterPoint point fraction ∧ (∀ c, rest.head? = some c → c.isDigit = false) ∧
      (point = [] → rest.head? ≠ some '.') := by
  have digits : ∀ text : List Char, ∀ c ∈ text.takeWhile Char.isDigit, c.isDigit = true := by
    intro text c member
    have holds := List.mem_takeWhile_imp member
    exact holds
  have ends : ∀ text : List Char, ∀ c, (text.dropWhile Char.isDigit).head? = some c →
      c.isDigit = false := by
    intro text c head
    have stops := List.head?_dropWhile_not Char.isDigit text
    rw [head] at stops
    exact stops
  have whole := text.takeWhile_append_dropWhile (p := Char.isDigit)
  by_cases point : (text.dropWhile Char.isDigit).head? = some '.'
  · obtain ⟨rest, left⟩ : ∃ rest, text.dropWhile Char.isDigit = '.' :: rest :=
      ⟨_, List.eq_cons_of_mem_head? point⟩
    have inner := rest.takeWhile_append_dropWhile (p := Char.isDigit)
    refine ⟨_, _, _, rest.dropWhile Char.isDigit, ?_, digits text, .present (digits rest),
      ends rest, nofun⟩
    rw [List.cons_append, inner, ← left, whole]
  · exact ⟨_, [], [], _, whole.symm, digits text, .absent, ends text, fun _ => point⟩

theorem decimal?_eq_some {text : List Char} {s : Scaled} :
    decimal? text = some s ↔ WritesScaled text s := by
  constructor
  · intro reads
    obtain ⟨whole, point, fraction, rest, rfl, wholes, points, ends, pointless⟩ :=
      decimal_parts text
    rw [decimal?_eq wholes points ends pointless] at reads
    obtain ⟨some, exponents⟩ := Option.ite_none_left_eq_some.mp reads
    obtain ⟨power, exponent, rfl⟩ := Option.map_eq_some_iff.mp exponents
    rw [Bool.and_eq_true, List.isEmpty_iff, List.isEmpty_iff, not_and_or] at some
    exact ⟨whole, point, fraction, rest, power, rfl, wholes, points, some,
      exponent?_eq_some.mp exponent, rfl⟩
  · rintro ⟨whole, point, fraction, exponent, power, rfl, wholes, points, some, exponents, rfl⟩
    have nonempty : ¬(whole.isEmpty && fraction.isEmpty) = true := by
      rw [Bool.and_eq_true, List.isEmpty_iff, List.isEmpty_iff, not_and_or]
      exact some
    rw [decimal?_eq wholes points exponents.ends.1 fun _ => exponents.ends.2, if_neg nonempty,
      exponent?_eq_some.mpr exponents]
    rfl

theorem WritesScaled.begins {text : List Char} {s : Scaled} (writes : WritesScaled text s) :
    ∃ c rest, text = c :: rest ∧ (c.isDigit = true ∨ c = '.') := by
  obtain ⟨whole, point, fraction, exponent, power, rfl, wholes, points, some, -, -⟩ := writes
  cases whole with
  | cons c more => exact ⟨c, _, rfl, .inl (wholes c List.mem_cons_self)⟩
  | nil =>
    cases points with
    | absent => exact absurd rfl (some.resolve_left fun other => other rfl)
    | present only => exact ⟨'.', _, rfl, .inr rfl⟩

theorem word?_point (negative : Bool) (more : List Char) : word? negative ('.' :: more) = none := by
  have other : ∀ {word : String}, word.toList.head? ≠ some '.' →
      String.ofList (('.' :: more).map Char.toLower) ≠ word := by
    rintro _ letter rfl
    rw [String.toList_ofList] at letter
    exact letter rfl
  unfold word?
  split
  · next same => exact absurd same (other (by decide))
  · next same => exact absurd same (other (by decide))
  · next same => exact absurd same (other (by decide))
  · rfl

theorem infinity_isFinite (negative : Bool) : (infinity negative).isFinite = false := by
  cases negative <;> rfl

theorem word?_eq_none {negative : Bool} {letters : List Char} :
    word? negative letters = none ↔
      letters.map Char.toLower ∉ ["inf".toList, "infinity".toList, "nan".toList] := by
  have spelled : ∀ word : String, letters.map Char.toLower = word.toList ↔
      String.ofList (letters.map Char.toLower) = word := by
    intro word
    rw [← String.toList_inj, String.toList_ofList]
  rw [List.mem_cons, List.mem_pair, spelled, spelled, spelled]
  unfold word?
  split
  · next same => exact ⟨nofun, fun other => absurd (.inl same) other⟩
  · next same => exact ⟨nofun, fun other => absurd (.inr (.inl same)) other⟩
  · next same => exact ⟨nofun, fun other => absurd (.inr (.inr same)) other⟩
  · next first second third =>
    exact ⟨fun _ => not_or.mpr ⟨first, not_or.mpr ⟨second, third⟩⟩, fun _ => rfl⟩

theorem word?_isFinite {negative : Bool} {letters : List Char} {x : Binary64}
    (reads : word? negative letters = some x) : x.isFinite = false := by
  unfold word? at reads
  split at reads
  · rw [← Option.some.inj reads]
    exact infinity_isFinite negative
  · rw [← Option.some.inj reads]
    exact infinity_isFinite negative
  · rw [← Option.some.inj reads]
    rfl
  · cases reads

theorem ofMagnitudeBits_infinity (negative : Bool) {rest : Nat}
    (above : 2047 * exponentUnit ≤ rest) : ofMagnitudeBits negative rest = infinity negative := by
  rw [infinity, ofMagnitudeBits, ofMagnitudeBits, Nat.min_eq_right above, Nat.min_self]

/-- Half a unit below an even number is still rounded up to it. -/
theorem even_le_of_half_below {v : ℚ} {n k : Nat} (nearest : NearestEven v n) (even : k % 2 = 0)
    (above : (k : ℚ) - 1 / 2 ≤ v) : k ≤ n := by
  by_contra less
  have near := abs_le.mp nearest.near
  have below : ((n + 1 : Nat) : ℚ) ≤ k := by exact_mod_cast Nat.lt_of_not_le less
  have next : k = n + 1 := by
    have bound : (k : ℚ) ≤ (n + 1 : Nat) := by
      push_cast
      linarith
    exact Nat.le_antisymm (Nat.cast_le.mp bound) (Nat.cast_le.mp below)
  have half : |v - n| = 1 / 2 := by
    push_cast at below
    rw [abs_of_nonneg (by linarith)]
    linarith
  have tie := nearest.even half
  omega

theorem two_pow_le_overflow : (2 : ℚ) ^ (1023 : Int) ≤ overflow := by
  have top : (2 : ℚ) ^ (1023 : Int) = 2 ^ 52 * 2 ^ (971 : Int) := by
    rw [← zpow_natCast, ← zpow_add₀ two_ne_zero]
    rfl
  rw [overflow, top]
  exact mul_le_mul_of_nonneg_right (by norm_num) (by positivity)

theorem ofQuotient_overflow {q : Quotient} (positive : q.Positive) (negative : Bool)
    (above : overflow ≤ q.value) : ofQuotient negative q = infinity negative := by
  have leads := leadingBit_leads positive
  have lead : 1023 < leadingBit q + 1 := (zpow_lt_zpow_iff_right₀ one_lt_two).mp
    ((two_pow_le_overflow.trans above).trans_lt leads.upper)
  have last : max (leadingBit q - 52) (-1074) = leadingBit q - 52 := by omega
  unfold ofQuotient
  rw [if_neg positive.num.ne']
  simp only [last]
  obtain ⟨unit, same⟩ : ∃ unit, leadingBit q - 52 = unit := ⟨_, rfl⟩
  have power : (2 : ℚ) ^ leadingBit q = (2 ^ 52 : Nat) * 2 ^ unit := by
    have whole : leadingBit q = (52 : Nat) + unit := by omega
    rw [whole, zpow_add₀ two_ne_zero, zpow_natCast, Nat.cast_pow, Nat.cast_ofNat]
  have some : (0 : ℚ) < 2 ^ unit := by positivity
  rw [same]
  have units := roundDiv_nearest (q.scale2 (-unit)).num (positive.scale2 (-unit)).den
  rw [← Quotient.value, Quotient.value_scale2, zpow_neg, ← div_eq_mul_inv] at units
  apply ofMagnitudeBits_infinity
  by_cases least : unit = 971
  · -- With the last exponent there is, rounding carries past the greatest significand.
    have full : 2 ^ 53 ≤ roundDiv (q.scale2 (-unit)).num (q.scale2 (-unit)).den := by
      apply even_le_of_half_below units (by decide)
      rw [le_div_iff₀ some, least]
      exact above
    unfold exponentUnit
    omega
  · have normal : 2 ^ 52 ≤ roundDiv (q.scale2 (-unit)).num (q.scale2 (-unit)).den := by
      apply units.lower
      rw [le_div_iff₀ some, ← power]
      exact leads.lower
    unfold exponentUnit
    omega

/-- From half a unit past the greatest finite number on, a decimal is read as infinity. -/
theorem ofScaled_overflow {s : Scaled} (negative : Bool) (above : overflow ≤ s.value) :
    ofScaled negative s = infinity negative := by
  have one : 1 ≤ s.value := one_le_overflow.trans above
  have nonzero : s.units ≠ 0 := by
    intro zero
    rw [Scaled.value, zero, Nat.cast_zero, zero_mul] at one
    exact absurd one (by norm_num)
  unfold ofScaled
  rw [if_neg nonzero]
  split
  · rfl
  · have leads := s.leads (Nat.pos_of_ne_zero nonzero)
    have near : ¬s.leading < -400 := by
      intro far
      have small : (10 : ℚ) ^ (s.leading + 1) ≤ 1 :=
        zpow_le_one_of_nonpos₀ (by norm_num) (by omega)
      exact absurd (leads.upper.trans_le small) one.not_gt
    rw [if_neg near]
    have positive : s.quotient.Positive :=
      Quotient.Positive.shift ⟨Nat.pos_of_ne_zero nonzero, Nat.one_pos⟩ _
    have same : s.quotient.value = s.value := by
      rw [Scaled.quotient, Quotient.value_shift, Quotient.value, Nat.cast_one, div_one,
        Scaled.value]
    exact ofQuotient_overflow positive negative (same.symm ▸ above)

/-- A text that stands for what is not finite: a word, or a decimal that is too large. -/
def WritesNonFinite (text : List Char) : Prop :=
  IsWord text ∨ ∃ negative worth, WritesDecimal text negative worth ∧ overflow ≤ worth

theorem WritesDecimal.reads {text : List Char} {negative : Bool} {worth : ℚ}
    (writes : WritesDecimal text negative worth) :
    ∃ s, s.value = worth ∧ ofLiteral? text = some (ofScaled negative s) := by
  obtain ⟨sign, digits, s, rfl, signs, scaled, same⟩ := writes
  refine ⟨s, same, ?_⟩
  have reads := decimal?_eq_some.mpr scaled
  obtain ⟨c, rest, rfl, begins⟩ := scaled.begins
  have unsigned : c ≠ '-' ∧ c ≠ '+' := by
    rcases begins with digit | rfl
    · exact digit_unsigned digit
    · decide
  have noWord : word? negative (c :: rest) = none := by
    rcases begins with digit | rfl
    · exact word?_digit negative digit rest
    · exact word?_point negative rest
  simp only [ofLiteral?, signs.split unsigned.1 unsigned.2, noWord, reads, Option.map_some]

theorem IsWord.reads {text : List Char} (word : IsWord text) :
    ∃ x, ofLiteral? text = some x ∧ x.isFinite = false := by
  obtain ⟨negative, sign, letters, rfl, signs, spelled⟩ := word
  obtain ⟨x, reads⟩ : ∃ x, word? negative letters = some x :=
    Option.ne_none_iff_exists'.mp fun none => word?_eq_none.mp none spelled
  refine ⟨x, ?_, word?_isFinite reads⟩
  cases letters with
  | nil => exact absurd spelled (by decide)
  | cons c more =>
    have first : c.toLower = 'i' ∨ c.toLower = 'n' := by
      simp only [List.mem_cons, List.not_mem_nil, or_false, List.map_cons] at spelled
      rcases spelled with same | same | same
      · exact .inl (List.cons.inj same).1
      · exact .inl (List.cons.inj same).1
      · exact .inr (List.cons.inj same).1
    have minus : c ≠ '-' := by
      rintro rfl
      exact absurd first (by decide)
    have plus : c ≠ '+' := by
      rintro rfl
      exact absurd first (by decide)
    simp only [ofLiteral?, signs.split minus plus, reads]

inductive LiteralRead (text : List Char) : Option Binary64 → Prop where
  | near {negative : Bool} {worth : ℚ} {x : Binary64} (writes : WritesDecimal text negative worth)
      (below : worth < overflow) (nearest : Nearest negative worth x) : LiteralRead text (some x)
  | nonFinite {x : Binary64} (writes : WritesNonFinite text) (beyond : x.isFinite = false) :
      LiteralRead text (some x)
  | other (word : ¬IsWord text) (decimal : ¬∃ negative worth, WritesDecimal text negative worth) :
      LiteralRead text none

theorem ofLiteral?_read (text : List Char) : LiteralRead text (ofLiteral? text) := by
  by_cases word : IsWord text
  · obtain ⟨x, reads, beyond⟩ := word.reads
    rw [reads]
    exact .nonFinite (.inl word) beyond
  · by_cases decimal : ∃ negative worth, WritesDecimal text negative worth
    · obtain ⟨negative, worth, writes⟩ := decimal
      obtain ⟨s, rfl, reads⟩ := writes.reads
      rw [reads]
      rcases lt_or_ge s.value overflow with below | above
      · exact .near writes below (ofScaled_nearest negative below)
      · rw [ofScaled_overflow negative above]
        exact .nonFinite (.inr ⟨negative, s.value, writes, above⟩) (infinity_isFinite negative)
    · -- What is read is a word or a decimal after its sign.
      obtain ⟨sign, whole, signs⟩ := splitSign_isSign text
      have none : ofLiteral? text = none := by
        simp only [ofLiteral?]
        split
        · next x reads =>
          refine absurd ⟨_, sign, _, whole, signs, ?_⟩ word
          by_contra other
          rw [word?_eq_none.mpr other] at reads
          cases reads
        · rw [Option.map_eq_none_iff, Option.eq_none_iff_forall_ne_some]
          intro s reads
          exact decimal ⟨_, s.value, sign, _, s, whole, signs, decimal?_eq_some.mp reads, rfl⟩
      rw [none]
      exact .other word decimal

theorem writesNonFinite_iff {text : List Char} :
    WritesNonFinite text ↔ ∃ x, ofLiteral? text = some x ∧ x.isFinite = false := by
  constructor
  · rintro (word | ⟨negative, worth, writes, above⟩)
    · exact word.reads
    · obtain ⟨s, rfl, reads⟩ := writes.reads
      exact ⟨_, reads, by rw [ofScaled_overflow negative above, infinity_isFinite]⟩
  · rintro ⟨x, reads, beyond⟩
    have read := ofLiteral?_read text
    rw [reads] at read
    cases read with
    | near writes below nearest => cases nearest.finite.symm.trans beyond
    | nonFinite writes => exact writes

theorem WritesDecimal.finite {text : List Char} {negative : Bool} {worth : ℚ}
    (writes : WritesDecimal text negative worth) (below : worth < overflow) :
    ¬WritesNonFinite text := by
  obtain ⟨s, rfl, reads⟩ := writes.reads
  rw [writesNonFinite_iff]
  rintro ⟨x, other, beyond⟩
  cases reads.symm.trans other
  cases (ofScaled_nearest negative below).finite.symm.trans beyond

theorem WritesInt.decimal {text : List Char} {i : Int} (writes : WritesInt text i) :
    ∃ negative, WritesDecimal text negative |(i : ℚ)| := by
  obtain ⟨negative, sign, digits, rfl, signs, only, rfl⟩ := writes
  refine ⟨negative, sign, digits, ⟨digitsValue digits, 0⟩, rfl, signs, ?_, ?_⟩
  · refine ⟨digits, [], [], [], 0, (List.append_nil _).symm, only.2, .absent, .inl only.1, .absent,
      ?_⟩
    rw [List.append_nil]
    rfl
  · rw [Scaled.value, zpow_zero, mul_one]
    cases negative <;> simp

end StructuredLog.Binary64
