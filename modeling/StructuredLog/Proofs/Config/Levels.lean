import StructuredLog.Config.Template

/-!
What a computation comes to with as many levels as it takes. It comes to one thing at most; what
is done one after another ends if each part does, and otherwise there is no end.
-/

namespace StructuredLog.Config

open Json (Value Members)

section Delay

variable {α β : Type} {x : Delay α}

open Classical in
/-- What a computation comes to in the end, and nothing if it is given up at every number of
levels. -/
noncomputable def Delay.final (x : Delay α) : Option α :=
  if ends : ∃ a levels, x.within levels = some a then some ends.choose else none

theorem Delay.unique {first second : Nat} {a b : α} (one : x.within first = some a)
    (two : x.within second = some b) : a = b := by
  have most := x.stays (Nat.le_max_left first second) one
  exact Option.some.inj (most.symm.trans (x.stays (Nat.le_max_right first second) two))

theorem Delay.final_eq_some {a : α} :
    x.final = some a ↔ ∃ levels, x.within levels = some a := by
  unfold final
  split
  · next ends =>
    obtain ⟨levels, done⟩ := ends.choose_spec
    constructor
    · intro same
      exact ⟨levels, Option.some.inj same ▸ done⟩
    · rintro ⟨other, found⟩
      exact congrArg some (unique done found)
  · next endless =>
    constructor
    · intro same
      cases same
    · rintro ⟨levels, done⟩
      exact absurd ⟨a, levels, done⟩ endless

theorem Delay.final_of_within {levels : Nat} {a : α} (done : x.within levels = some a) :
    x.final = some a := final_eq_some.mpr ⟨levels, done⟩

/-- From some number of levels on nothing changes any more. -/
theorem Delay.within_eventually (x : Delay α) :
    ∃ levels, ∀ more, levels ≤ more → x.within more = x.final := by
  cases ends : x.final with
  | none =>
    refine ⟨0, fun more _ => ?_⟩
    rw [Option.eq_none_iff_forall_ne_some]
    intro a found
    cases ends.symm.trans (final_of_within found)
  | some a =>
    obtain ⟨levels, done⟩ := final_eq_some.mp ends
    exact ⟨levels, fun more enough => x.stays enough done⟩

theorem Delay.final_pure (a : α) : (pure a : Delay α).final = some a :=
  final_eq_some.mpr ⟨0, rfl⟩

theorem Delay.final_bind (x : Delay α) (next : α → Delay β) :
    (x >>= next).final = x.final.bind fun a => (next a).final := by
  apply Option.ext
  intro b
  rw [final_eq_some, Option.bind_eq_some_iff]
  constructor
  · rintro ⟨levels, done⟩
    obtain ⟨a, first, last⟩ := Option.bind_eq_some_iff.mp done
    exact ⟨a, final_of_within first, final_of_within last⟩
  · rintro ⟨a, own, later⟩
    obtain ⟨first, own⟩ := final_eq_some.mp own
    obtain ⟨second, later⟩ := final_eq_some.mp later
    have both : ((x.within (max first second)).bind fun a => (next a).within (max first second)) =
        some b := by
      rw [x.stays (Nat.le_max_left _ _) own, Option.bind_some]
      exact (next a).stays (Nat.le_max_right _ _) later
    exact ⟨max first second, both⟩

theorem Eventual.final_bind (x : Eventual α) (next : α → Eventual β) :
    (x >>= next).final = x.final.bind fun outcome => match outcome with
      | .ok a => (next a).final
      | .error e => some (.error e) := by
  have step : (x >>= next).final =
      x.final.bind fun outcome => (ExceptT.bindCont next outcome).final := Delay.final_bind _ _
  rw [step]
  congr 1
  funext outcome
  cases outcome with
  | ok a => rfl
  | error e => exact Delay.final_pure _

theorem Eventual.final_lift (attempt : Except Error α) :
    (liftM attempt : Eventual α).final = some attempt := Delay.final_pure attempt

end Delay

section Levels

variable {mode : Substitution} {shape : Shape} {v : Value} {levels : Nat}

theorem ended_eq_ok {α : Type} {attempt : Attempt α} {a : α} :
    ended attempt = some (.ok a) ↔ attempt = .ok a := by
  rcases attempt with (_ | error) | b
  · simp [ended]
  · simp [ended]
  · simp [ended]

def Expands (mode : Substitution) (shape : Shape) (v result : Value) : Prop :=
  (expandShape mode shape v).final = some (.ok result)

/-- A document expands to what its expansion comes to at some number of levels. -/
theorem expands_iff {result : Value} :
    Expands mode shape v result ↔ ∃ levels, expandWithin mode shape levels v = .ok result := by
  rw [Expands, Delay.final_eq_some]
  exact exists_congr fun levels => ended_eq_ok

theorem Expands.of_within {result : Value}
    (done : expandWithin mode shape levels v = .ok result) : Expands mode shape v result :=
  expands_iff.mpr ⟨levels, done⟩

end Levels

end StructuredLog.Config
