import StructuredLog.Error

/-!
Computations that may never end. They are given a number of levels to go down; within it they come
to something or are given up, and what they have come to they come to within more levels too.
-/

namespace StructuredLog.Config

/-- What a computation comes to within a number of levels, if it does. -/
structure Delay (α : Type) where
  within : Nat → Option α
  stays : ∀ {levels more : Nat} {a : α}, levels ≤ more → within levels = some a →
    within more = some a

section Delay

variable {α β : Type}

def Delay.now (a : α) : Delay α := ⟨fun _ => some a, fun _ done => done⟩

def Delay.andThen (x : Delay α) (next : α → Delay β) : Delay β where
  within levels := (x.within levels).bind fun a => (next a).within levels
  stays := by
    intro levels more b enough done
    obtain ⟨a, first, last⟩ := Option.bind_eq_some_iff.mp done
    exact Option.bind_eq_some_iff.mpr ⟨a, x.stays enough first, (next a).stays enough last⟩

instance : Monad Delay where
  pure := Delay.now
  bind := Delay.andThen

abbrev Eventual (α : Type) := ExceptT Error Delay α

/-- What a computation comes to within some levels: it fails with an error, or with `none` where it
was given up. -/
abbrev Attempt (α : Type) := Except (Option Error) α

def ended : Attempt α → Option (Except Error α)
  | .ok a => some (.ok a)
  | .error (some error) => some (.error error)
  | .error none => none

/-- An attempt that was given up may come to anything when it is made again. -/
def Below (first second : Attempt α) : Prop := first = .error none ∨ first = second

theorem Below.refl (attempt : Attempt α) : Below attempt attempt := .inr rfl

theorem Below.bind {first second : Attempt α} {next later : α → Attempt β}
    (below : Below first second) (each : ∀ a, Below (next a) (later a)) :
    Below (first >>= next) (second >>= later) := by
  rcases below with rfl | rfl
  · exact .inl rfl
  · cases first with
    | error error => exact .refl _
    | ok a => exact each a

theorem Below.map {first second : Attempt α} (below : Below first second) (f : α → β) :
    Below (first.map f) (second.map f) := below.bind fun a => .refl (.ok (f a))

theorem Below.mapM {f g : α → Attempt β} (each : ∀ a, Below (f a) (g a)) (items : List α) :
    Below (items.mapM f) (items.mapM g) := by
  induction items with
  | nil => exact .refl _
  | cons a rest ih =>
    rw [List.mapM_cons, List.mapM_cons]
    exact (each a).bind fun b => ih.bind fun others => .refl _

theorem Below.ended {first second : Attempt α} (below : Below first second)
    {outcome : Except Error α} (ends : Config.ended first = some outcome) :
    Config.ended second = some outcome := by
  rcases below with rfl | rfl
  · cases ends
  · exact ends

end Delay

end StructuredLog.Config
