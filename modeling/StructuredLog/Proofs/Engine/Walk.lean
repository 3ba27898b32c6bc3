import StructuredLog.Engine.Basic

/-!
What walks leave alone. A visit calls no handle but that of its instance, and changes nothing of the
instance but the state of that handle; so names, options, types and numbers of handles stay as they
are through every walk, and whatever is delivered goes to an instance of the table.
-/

namespace StructuredLog

variable {S W : Type}

def Event.receiver? : Event S → Option Nat
  | .wrote handle _ _ => some handle.id
  | .formatted handle _ _ => some handle.id
  | _ => none

def Instance.withState (i : Instance S W) (state : S) : Instance S W :=
  { i with handle := { i.handle with state } }

namespace Engine

open Record (Pool)
open Text (Bytes)

/-- Instances that differ at most in the state of their handle. -/
def Alike (i j : Instance S W) : Prop := ∃ state, j = i.withState state

theorem Alike.refl (i : Instance S W) : Alike i i := ⟨i.handle.state, rfl⟩

theorem Alike.trans {i j k : Instance S W} (first : Alike i j) (second : Alike j k) :
    Alike i k := by
  obtain ⟨_, rfl⟩ := first
  obtain ⟨state, rfl⟩ := second
  exact ⟨state, rfl⟩

theorem Alike.id {i j : Instance S W} (alike : Alike i j) : j.handle.id = i.handle.id := by
  obtain ⟨_, rfl⟩ := alike
  rfl

theorem Alike.type {i j : Instance S W} (alike : Alike i j) : j.type = i.type := by
  obtain ⟨_, rfl⟩ := alike
  rfl

theorem Alike.options {i j : Instance S W} (alike : Alike i j) : j.options = i.options := by
  obtain ⟨_, rfl⟩ := alike
  rfl

structure Visit.Local {C : Type} (i : Instance S W) (v : Visit C S W) : Prop where
  alike : Alike i v.visited
  own : ∀ event ∈ v.events, event.receiver? = some i.handle.id

theorem Visit.skip_local {C : Type} (carried : C) (i : Instance S W) :
    (Visit.skip carried i).Local i where
  alike := Alike.refl i
  own := by
    intro event member
    cases member

variable {C A : Type} {visit : C → Instance S W → Visit C S W}

/-- What does not depend on the states of handles is the same before and after a walk. -/
theorem walk_map (isLocal : ∀ carried i, (visit carried i).Local i)
    (f : String × Instance S W → A)
    (stable : ∀ name i j, Alike i j → f (name, j) = f (name, i))
    (carried : C) (table : Table (Instance S W)) :
    (walk visit carried table).instances.map f = table.map f := by
  induction table generalizing carried with
  | nil => rfl
  | cons entry rest ih =>
    rcases entry with ⟨name, i⟩
    have same := stable name i _ (isLocal carried i).alike
    by_cases stops : (visit carried i).stops
    · simp only [walk, stops, ↓reduceIte, List.map_cons, same]
    · simp only [walk, stops, Bool.false_eq_true, ↓reduceIte, List.map_cons, same, ih]

theorem walk_receivers (isLocal : ∀ carried i, (visit carried i).Local i)
    (carried : C) (table : Table (Instance S W)) :
    ∀ event ∈ (walk visit carried table).events,
      ∃ entry ∈ table, event.receiver? = some entry.2.handle.id := by
  induction table generalizing carried with
  | nil =>
    intro event member
    cases member
  | cons entry rest ih =>
    rcases entry with ⟨name, i⟩
    intro event member
    by_cases stops : (visit carried i).stops
    · simp only [walk, stops, ↓reduceIte] at member
      exact ⟨(name, i), List.mem_cons_self, (isLocal carried i).own event member⟩
    · simp only [walk, stops, Bool.false_eq_true, ↓reduceIte, List.mem_append] at member
      rcases member with here | later
      · exact ⟨(name, i), List.mem_cons_self, (isLocal carried i).own event here⟩
      · obtain ⟨other, present, receives⟩ := ih _ event later
        exact ⟨other, List.mem_cons_of_mem _ present, receives⟩

/-- What is not seen of an event that hands something to an instance is not seen of a walk. -/
theorem walk_silent {A : Type} {seen? : Event S → Option A}
    (silent : ∀ event id, event.receiver? = some id → seen? event = none)
    (isLocal : ∀ carried i, (visit carried i).Local i) (carried : C)
    (table : Table (Instance S W)) :
    (walk visit carried table).events.filterMap seen? = [] := by
  apply List.filterMap_eq_nil_iff.mpr
  intro event member
  obtain ⟨entry, _, own⟩ := walk_receivers isLocal carried table event member
  exact silent event entry.2.handle.id own

variable [Handler S]

theorem write_alike (i : Instance S W) (s : Severity) (data : Bytes) :
    Alike i (i.write s data).2 :=
  ⟨_, rfl⟩

theorem format_alike (i : Instance S W) (s : Severity) (lines : List String) :
    Alike i (i.format s lines).1 := by
  induction lines generalizing i with
  | nil => exact Alike.refl i
  | cons text rest ih =>
    exact Alike.trans ⟨(Handler.format i.handle.state s text).2, rfl⟩ (ih _)

theorem format_receivers (i : Instance S W) (s : Severity) (lines : List String) :
    ∀ event ∈ (i.format s lines).2, event.receiver? = some i.handle.id := by
  induction lines generalizing i with
  | nil =>
    intro event member
    cases member
  | cons text rest ih =>
    intro event member
    rcases List.mem_cons.mp member with first | later
    · rw [first]
      rfl
    · exact ih (i.withState (Handler.format i.handle.state s text).2) event later

theorem offer_local (setting : Nat → Setting) (slot : Option Nat) (m : Message) (pool : Pool)
    (i : Instance S W) : (offer setting slot m pool i).Local i := by
  unfold offer
  split
  · exact Visit.skip_local pool i
  · next data pool' _ =>
    refine ⟨write_alike i m.severity data, ?_⟩
    intro event member
    rw [List.mem_singleton.mp member]
    rfl

theorem trace_local (lines : List String) (m : Message) {i : Instance S W} {v : Visit Pool S W}
    (isLocal : v.Local i) : (trace lines m v).Local i := by
  unfold trace
  split
  · refine ⟨isLocal.alike.trans (format_alike _ m.severity lines), ?_⟩
    intro event member
    rcases List.mem_append.mp member with before | shown
    · exact isLocal.own event before
    · rw [← isLocal.alike.id]
      exact format_receivers _ m.severity lines event shown
  · exact isLocal

theorem deliver_local (setting : Nat → Setting) (slot : Option Nat) (lines : List String)
    (m : Message) (pool : Pool) (i : Instance S W) :
    (deliver setting slot lines m pool i).Local i := by
  have offered := offer_local setting slot m pool i
  unfold deliver
  split
  · exact Visit.skip_local pool i
  · by_cases stops : (offer setting slot m pool i).stops
    · simpa only [stops, ↓reduceIte] using offered
    · simpa only [stops, Bool.false_eq_true, ↓reduceIte] using trace_local lines m offered

theorem deliverRaw_local (s : Severity) (data : Bytes) (carried : Unit) (i : Instance S W) :
    (deliverRaw s data carried i).Local i := by
  unfold deliverRaw
  split
  · exact Visit.skip_local _ i
  · refine ⟨write_alike i s data, ?_⟩
    intro event member
    rw [List.mem_singleton.mp member]
    rfl

theorem deliverLines_local (s : Severity) (lines : List String) (carried : Unit)
    (i : Instance S W) : (deliverLines s lines carried i).Local i := by
  unfold deliverLines
  split
  · exact Visit.skip_local _ i
  · exact ⟨format_alike i s lines, format_receivers i s lines⟩

end Engine

end StructuredLog
