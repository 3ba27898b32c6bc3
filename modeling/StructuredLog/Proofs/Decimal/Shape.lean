import StructuredLog.Proofs.Decimal.Layout

/-!
The notation of a decimal: whether it has an exponent, how that is written, and that no zero at the
end of a fraction is one too many.
-/

namespace StructuredLog.Decimal

open Json (IsDigits IsWhole IsFraction)
open Text (digitsValue)

theorem stripZeros_last (digits : List Char) : (stripZeros digits).getLast? ≠ some '0' := by
  induction digits with
  | nil => exact fun none => by cases none
  | cons d rest ih =>
    unfold stripZeros
    split
    · next empty =>
      split
      · exact fun none => by cases none
      · next nonzero => simpa using nonzero
    · next kept some =>
      rw [List.getLast?_cons_of_ne_nil]
      · exact ih
      · exact some

theorem stripZeros_zeros (digits : List Char) (count : Nat) :
    stripZeros (digits ++ List.replicate count '0') = stripZeros digits := by
  induction digits with
  | nil =>
    induction count with
    | zero => rfl
    | succ count ih =>
      rw [List.nil_append] at ih
      have stripped : stripZeros (List.replicate count '0') = [] := ih
      rw [List.nil_append, List.replicate_succ, stripZeros.eq_2, stripped]
      rfl
  | cons d rest ih => rw [List.cons_append, stripZeros, ih, stripZeros]

theorem toDigits_zeros {n : Nat} (positive : 0 < n) (count : Nat) :
    Nat.toDigits 10 (n * 10 ^ count) = Nat.toDigits 10 n ++ List.replicate count '0' := by
  induction count with
  | zero => rw [Nat.pow_zero, Nat.mul_one, List.replicate_zero, List.append_nil]
  | succ count ih =>
    have some : 0 < n * 10 ^ count := Nat.mul_pos positive (Nat.pow_pos (by decide))
    have last := Nat.toDigits_append_toDigits (b := 10) (d := 0) (by decide) some (by decide)
    rw [Nat.pow_succ, ← Nat.mul_assoc, Nat.mul_comm _ 10, ← Nat.add_zero (10 * _), ← last, ih,
      List.append_assoc, List.replicate_succ']
    rfl

namespace Layout

/-- How a decimal is written whose leading digit has the exponent `e`. In full there is a point with
a fraction; with an exponent one digit stands before the point, if there is a point. No zero ends a
fraction, except the only digit of one in full. -/
inductive Shaped (layout : Layout) (e : Int) : List Char → Prop where
  | inFull {whole fraction : List Char} (within : layout.lowest ≤ e ∧ e ≤ layout.highest)
      (wholes : IsWhole whole) (fractions : IsDigits fraction)
      (tight : fraction = ['0'] ∨ fraction.getLast? ≠ some '0') :
      Shaped layout e (whole ++ '.' :: fraction)
  | withExponent {lead : Char} {fraction digits : List Char}
      (outside : ¬(layout.lowest ≤ e ∧ e ≤ layout.highest)) (digit : lead.isDigit = true)
      (fractions : IsFraction fraction) (tight : fraction.getLast? ≠ some '0')
      (exponents : IsDigits digits) (places : layout.exponentDigits ≤ digits.length)
      (size : digitsValue digits = e.natAbs) :
      Shaped layout e (lead :: fraction ++ 'e' :: (if e < 0 then '-' else '+') :: digits)

theorem no_mark {text : List Char} (only : ∀ c ∈ text, c.isDigit = true) : 'e' ∉ text := by
  intro member
  cases only _ member

namespace Shaped

variable {layout : Layout} {e : Int} {text : List Char}

theorem mark_iff (shaped : layout.Shaped e text) :
    'e' ∈ text ↔ ¬(layout.lowest ≤ e ∧ e ≤ layout.highest) := by
  cases shaped with
  | inFull within wholes fractions =>
    have whole := no_mark wholes.1.2
    have fraction := no_mark fractions.2
    simp [within, whole, fraction]
  | withExponent outside => simp [outside]

theorem point_or_mark (shaped : layout.Shaped e text) : '.' ∈ text ∨ 'e' ∈ text := by
  cases shaped with
  | inFull => simp
  | withExponent => simp

end Shaped

theorem inFull_shaped {layout : Layout} {digits : List Char} (only : IsDigits digits)
    (first : digits.head? ≠ some '0') (last : digits.getLast? ≠ some '0') {e : Int}
    (within : layout.lowest ≤ e ∧ e ≤ layout.highest) : layout.Shaped e (inFull digits e) := by
  cases e with
  | negSucc below =>
    have rest : IsDigits (List.replicate below '0' ++ digits) := by
      refine ⟨List.append_ne_nil_of_right_ne_nil _ only.1, ?_⟩
      exact List.forall_mem_append.mpr ⟨zeros_isDigit below, only.2⟩
    have tight : (List.replicate below '0' ++ digits).getLast? ≠ some '0' := by
      rw [List.getLast?_append_of_ne_nil _ only.1]
      exact last
    have shaped := Shaped.inFull within ⟨zero_isDigits, .inl rfl⟩ rest (.inr tight)
    rw [inFull, List.append_assoc]
    exact shaped
  | ofNat above =>
    simp only [inFull, Int.ofNat_eq_natCast]
    split
    · next short =>
      have whole : IsWhole (digits ++ List.replicate (above + 1 - digits.length) '0') := by
        refine ⟨isDigits_append only (zeros_isDigit _), .inr ?_⟩
        rw [List.head?_append_of_ne_nil _ only.1]
        exact first
      exact .inFull within whole zero_isDigits (.inl rfl)
    · next fraction long =>
      have parts : digits.take (above + 1) ++ digits.drop (above + 1) = digits :=
        List.take_append_drop _ _
      refine .inFull within ⟨⟨?_, fun c member => only.2 c (List.mem_of_mem_take member)⟩, .inr ?_⟩
        ⟨long, fun c member => only.2 c (List.mem_of_mem_drop member)⟩ (.inr ?_)
      · simp [only.1]
      · rw [List.head?_take, if_neg (Nat.succ_ne_zero above)]
        exact first
      · rw [← parts, List.getLast?_append_of_ne_nil _ long] at last
        exact last

theorem withExponent_shaped {layout : Layout} {digits : List Char} (only : IsDigits digits)
    (last : digits.getLast? ≠ some '0') {e : Int}
    (outside : ¬(layout.lowest ≤ e ∧ e ≤ layout.highest)) :
    layout.Shaped e (withExponent layout.exponentDigits digits e) := by
  obtain ⟨exponents, size⟩ := paddedDigits layout.exponentDigits e.natAbs
  have places : layout.exponentDigits ≤
      (padLeft '0' layout.exponentDigits (Nat.toDigits 10 e.natAbs)).length := by
    rw [padLeft, List.length_append, List.length_replicate]
    omega
  cases digits with
  | nil => exact absurd rfl only.1
  | cons d others =>
    have digit := only.2 d List.mem_cons_self
    cases others with
    | nil => exact .withExponent outside digit (.inl rfl) (by simp) exponents places size
    | cons second others =>
      have rest : IsDigits (second :: others) :=
        ⟨List.cons_ne_nil _ _, fun c member => only.2 c (List.mem_cons_of_mem d member)⟩
      have fraction : IsFraction ('.' :: second :: others) := .inr ⟨_, rfl, rest⟩
      have shaped := Shaped.withExponent outside digit fraction last exponents places size
      simpa only [withExponent, List.cons_append, List.append_assoc, List.nil_append] using shaped

theorem place_shaped (layout : Layout) {digits : List Char} (only : IsDigits digits)
    (first : digits.head? ≠ some '0') (last : digits.getLast? ≠ some '0') (e : Int) :
    layout.Shaped e (layout.place digits e) := by
  unfold place
  split
  · next within => exact inFull_shaped only first last within
  · next outside => exact withExponent_shaped only last outside

theorem text_shaped (layout : Layout) {value : Scaled} (positive : 0 < value.units) :
    layout.Shaped value.leading (layout.text value) := by
  obtain ⟨only, first, _⟩ := stripZeros_digits positive
  exact layout.place_shaped only first (stripZeros_last _) _

/-- What is written of a decimal is what it is worth, and not how many zeros its units end in. -/
theorem text_same (layout : Layout) {s t : Scaled} (positive : 0 < s.units)
    (same : s.value = t.value) : layout.text s = layout.text t := by
  -- The one with the larger power has fewer zeros.
  have ordered : ∀ {s t : Scaled}, 0 < s.units → s.value = t.value → t.power ≤ s.power →
      layout.text s = layout.text t := by
    intro s t positive same less
    obtain ⟨count, power⟩ := Int.le.dest less
    have units : t.units = s.units * 10 ^ count := by
      have unit : (10 : ℚ) ^ t.power ≠ 0 := by positivity
      have scaled : (s.units : ℚ) * 10 ^ count * 10 ^ t.power = t.units * 10 ^ t.power := by
        rw [mul_assoc, ← zpow_natCast, ← zpow_add₀ (by norm_num), add_comm, power]
        exact same
      exact_mod_cast (mul_right_cancel₀ unit scaled).symm
    have own := s.leads positive
    have other := t.leads (units ▸ Nat.mul_pos positive (Nat.pow_pos (by decide)))
    rw [← same] at other
    rw [text, text, own.unique (by norm_num) other, units, toDigits_zeros positive,
      stripZeros_zeros]
  rcases le_total t.power s.power with less | more
  · exact ordered positive same less
  · have worth := Scaled.value_pos positive
    rw [same, Scaled.value] at worth
    have some : 0 < t.units := by
      apply Nat.pos_of_ne_zero
      intro zero
      rw [zero, Nat.cast_zero, zero_mul] at worth
      exact lt_irrefl _ worth
    exact (ordered some same.symm more).symm

end Layout
end StructuredLog.Decimal
