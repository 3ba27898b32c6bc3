import StructuredLog.Proofs.OptionBits

/-!
Options by their names. A list of names that are all known stands for the bits of each of them, and
of any other the first unknown name is refused.
-/

namespace StructuredLog.Options

def Known (name : String) : Prop := ∃ options, ofName name = .ok options

def Named (list : List String) (place : Nat) : Prop :=
  ∃ name ∈ list, ∃ options, ofName name = .ok options ∧ options.Has place

structure FirstUnknown (list : List String) (name : String) : Prop where
  unknown : ¬Known name
  first : ∃ before after, list = before ++ name :: after ∧ ∀ other ∈ before, Known other

theorem FirstUnknown.not_known {list : List String} {name : String}
    (first : FirstUnknown list name) : ¬∀ name ∈ list, Known name := by
  obtain ⟨before, after, rfl, -⟩ := first.first
  exact fun known => first.unknown (known name List.mem_append_cons_self)

theorem ofName_unknown {name : String} (unknown : ¬Known name) :
    ofName name = .error (.unknownOption (foldName name)) := by
  cases found : Table.get? (foldName name) names with
  | some options => exact absurd ⟨options, by rw [ofName, found]⟩ unknown
  | none => rw [ofName, found]

theorem named_cons {name : String} {options : Options} (known : ofName name = .ok options)
    (rest : List String) (place : Nat) :
    Named (name :: rest) place ↔ options.Has place ∨ Named rest place := by
  constructor
  · rintro ⟨other, member, found, own, set⟩
    rcases List.mem_cons.mp member with rfl | later
    · cases own.symm.trans known
      exact .inl set
    · exact .inr ⟨other, later, found, own, set⟩
  · rintro (set | ⟨other, member, found, own, set⟩)
    · exact ⟨name, List.mem_cons_self, options, known, set⟩
    · exact ⟨other, List.mem_cons_of_mem _ member, found, own, set⟩

theorem addNames_known {list : List String} (known : ∀ name ∈ list, Known name)
    (options : Options) :
    ∃ result, addNames options list = .ok result ∧
      ∀ place, result.Has place ↔ options.Has place ∨ Named list place := by
  induction list generalizing options with
  | nil =>
    refine ⟨options, rfl, fun place => ⟨.inl, ?_⟩⟩
    rintro (set | ⟨name, member, -⟩)
    · exact set
    · cases member
  | cons name rest ih =>
    obtain ⟨⟨own, found⟩, others⟩ := List.forall_mem_cons.mp known
    obtain ⟨result, done, bits⟩ := ih others (options.union own)
    refine ⟨result, ?_, fun place => ?_⟩
    · rw [addNames, found]
      exact done
    · rw [bits, has_union, named_cons found, or_assoc]

theorem addNames_unknown {list : List String} {name : String} (first : FirstUnknown list name)
    (options : Options) : addNames options list = .error (.unknownOption (foldName name)) := by
  obtain ⟨unknown, before, after, rfl, known⟩ := first
  induction before generalizing options with
  | nil =>
    rw [List.nil_append, addNames, ofName_unknown unknown]
    rfl
  | cons other rest ih =>
    obtain ⟨⟨own, found⟩, others⟩ := List.forall_mem_cons.mp known
    rw [List.cons_append, addNames, found]
    exact ih (options.union own) others

theorem known_or_first (list : List String) :
    (∀ name ∈ list, Known name) ∨ ∃ name, FirstUnknown list name := by
  induction list with
  | nil => exact .inl (List.forall_mem_nil _)
  | cons name rest ih =>
    by_cases own : Known name
    · rcases ih with known | ⟨other, unknown, before, after, rfl, known⟩
      · exact .inl (List.forall_mem_cons.mpr ⟨own, known⟩)
      · exact .inr ⟨other, unknown, name :: before, after, rfl,
          List.forall_mem_cons.mpr ⟨own, known⟩⟩
    · exact .inr ⟨name, own, [], rest, rfl, List.forall_mem_nil _⟩

/-- A list of known names stands for the bits that are named in it, and no others. -/
theorem ofNames_known {list : List String} (known : ∀ name ∈ list, Known name) :
    ∃ result, ofNames list = .ok result ∧ ∀ place, result.Has place ↔ Named list place := by
  obtain ⟨result, done, bits⟩ := addNames_known known none
  have empty : ∀ place, ¬none.Has place := by
    intro place set
    have bare : ∀ p < 32, ¬none.Has p := by decide
    exact bare place set.lt set
  refine ⟨result, done, fun place => (bits place).trans ?_⟩
  exact or_iff_right (empty place)

theorem ofNames_unknown {list : List String} {name : String} (first : FirstUnknown list name) :
    ofNames list = .error (.unknownOption (foldName name)) :=
  addNames_unknown first none

end StructuredLog.Options
