import Mathlib.Tactic.ByContra
import StructuredLog.Options

/-!
Options as sets of bit places. `contains` is inclusion and `intersects` is that the two sets meet,
so a question about an option of one bit is a question about one place.
-/

namespace StructuredLog.Options

def Has (a : Options) (place : Nat) : Prop := a.bits.toBitVec.getLsbD place = true

instance (a : Options) (place : Nat) : Decidable (a.Has place) :=
  inferInstanceAs (Decidable (_ = true))

theorem Has.lt {a : Options} {place : Nat} (set : a.Has place) : place < 32 :=
  BitVec.lt_of_getLsbD set

theorem has_and (a b : Options) (place : Nat) :
    (a.bits &&& b.bits).toBitVec.getLsbD place = true ↔ a.Has place ∧ b.Has place := by
  simp only [UInt32.toBitVec_and, BitVec.getLsbD_and, Bool.and_eq_true, Has]

theorem has_union (a b : Options) (place : Nat) :
    (a.union b).Has place ↔ a.Has place ∨ b.Has place := by
  simp only [Has, union, UInt32.toBitVec_or, BitVec.getLsbD_or, Bool.or_eq_true]

theorem contains_iff (a b : Options) :
    a.contains b = true ↔ ∀ place, b.Has place → a.Has place := by
  rw [contains, beq_iff_eq]
  constructor
  · intro same place set
    rw [Has, ← same] at set
    exact ((has_and a b place).mp set).1
  · intro included
    apply UInt32.toBitVec_inj.mp
    apply BitVec.eq_of_getLsbD_eq
    intro place _
    rw [Bool.eq_iff_iff, has_and]
    exact ⟨fun both => both.2, fun set => ⟨included place set, set⟩⟩

theorem intersects_iff (a b : Options) :
    a.intersects b = true ↔ ∃ place, a.Has place ∧ b.Has place := by
  rw [intersects, bne_iff_ne]
  constructor
  · intro nonzero
    by_contra none
    apply nonzero
    apply UInt32.toBitVec_inj.mp
    apply BitVec.eq_of_getLsbD_eq
    intro place _
    rw [Bool.eq_iff_iff, has_and]
    constructor
    · intro both
      exact absurd ⟨place, both⟩ none
    · intro set
      simp at set
  · rintro ⟨place, both⟩ zero
    have set := (has_and a b place).mpr both
    rw [zero] at set
    simp at set

/-- Options of one bit are contained exactly where they are met. -/
theorem contains_eq_intersects {b : Options} {place : Nat} (single : ∀ p, b.Has p ↔ p = place)
    (a : Options) : a.contains b = a.intersects b := by
  rw [Bool.eq_iff_iff, contains_iff, intersects_iff]
  constructor
  · intro included
    exact ⟨place, included place ((single place).mpr rfl), (single place).mpr rfl⟩
  · rintro ⟨p, set, also⟩ q other
    rw [(single q).mp other, ← (single p).mp also]
    exact set

theorem intersects_union (a b c : Options) :
    a.intersects (b.union c) = (a.intersects b || a.intersects c) := by
  rw [Bool.eq_iff_iff, Bool.or_eq_true]
  simp only [intersects_iff, has_union]
  constructor
  · rintro ⟨place, set, left | right⟩
    · exact .inl ⟨place, set, left⟩
    · exact .inr ⟨place, set, right⟩
  · rintro (⟨place, set, left⟩ | ⟨place, set, right⟩)
    · exact ⟨place, set, .inl left⟩
    · exact ⟨place, set, .inr right⟩

private theorem single_of_below {b : Options} {place : Nat} (bound : place < 32)
    (below : ∀ p < 32, b.Has p ↔ p = place) (p : Nat) : b.Has p ↔ p = place := by
  by_cases small : p < 32
  · exact below p small
  · constructor
    · intro set
      exact absurd set.lt small
    · intro same
      omega

theorem has_exitZero (p : Nat) : exitZero.Has p ↔ p = 16 :=
  single_of_below (by decide) (by decide) p

theorem has_exitNegative (p : Nat) : exitNegative.Has p ↔ p = 17 :=
  single_of_below (by decide) (by decide) p

theorem has_abort (p : Nat) : abort.Has p ↔ p = 18 := single_of_below (by decide) (by decide) p

theorem has_ofSeverity (s : Severity) (p : Nat) : (ofSeverity s).Has p ↔ p = s.index := by
  cases s <;> exact single_of_below (by decide) (by decide) p

theorem contains_ofSeverity (a : Options) (s : Severity) :
    a.contains (ofSeverity s) = true ↔ a.Has s.index := by
  rw [contains_iff]
  constructor
  · intro included
    exact included s.index ((has_ofSeverity s s.index).mpr rfl)
  · intro set p own
    rw [(has_ofSeverity s p).mp own]
    exact set

theorem has_allSeverities (p : Nat) : allSeverities.Has p ↔ ∃ s : Severity, s.index = p := by
  constructor
  · intro set
    have named : ∀ p < 32, allSeverities.Has p → ∃ s ∈ Severity.all, s.index = p := by decide
    obtain ⟨s, _, same⟩ := named p set.lt set
    exact ⟨s, same⟩
  · rintro ⟨s, rfl⟩
    cases s <;> decide

/-- Options meet those of all severities where they name one of them. -/
theorem intersects_allSeverities (a : Options) :
    a.intersects allSeverities = true ↔ ∃ s : Severity, a.Has s.index := by
  rw [intersects_iff]
  constructor
  · rintro ⟨place, set, among⟩
    obtain ⟨s, rfl⟩ := (has_allSeverities place).mp among
    exact ⟨s, set⟩
  · rintro ⟨s, set⟩
    exact ⟨s.index, set, (has_allSeverities s.index).mpr ⟨s, rfl⟩⟩

theorem severity_of_intersects {a : Options} (meets : a.intersects allSeverities = true) :
    ∃ s, a.contains (ofSeverity s) = true := by
  obtain ⟨s, set⟩ := (intersects_allSeverities a).mp meets
  exact ⟨s, (contains_ofSeverity a s).mpr set⟩

/-- A call asks the process to end by any of the three options that say so. -/
theorem wantsTermination_eq (a : Options) :
    a.wantsTermination = (a.contains exitZero || a.contains exitNegative || a.contains abort) := by
  rw [wantsTermination, terminating, intersects_union, intersects_union,
    contains_eq_intersects has_exitZero, contains_eq_intersects has_exitNegative,
    contains_eq_intersects has_abort]

end StructuredLog.Options
