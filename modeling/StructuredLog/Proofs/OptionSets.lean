import StructuredLog.Proofs.OptionNames

/-!
Lists of option names as sets. The name of a severity stands for its bit and a preset for the bits
of all severities down to a least one; a list stands for the bits of all its names together, in
whatever order and however often they come.
-/

namespace StructuredLog.Options

/-- The names of several severities, each with the least severe one that it takes in. -/
def presets : Table Severity :=
  [("up_error", .error), ("up_warning", .warning), ("up_info", .info), ("all", .monitor)]

/-- A name stands for a severity, by itself or together with others. -/
inductive Covers (name : String) (s : Severity) : Prop where
  | own (named : Severity.ofName name = .ok s)
  | among {least : Severity} (preset : Table.get? (foldName name) presets = some least)
      (within : s.atLeast least = true)

theorem ofName_eq_ok {name : String} {options : Options} :
    ofName name = .ok options ↔ Table.get? (foldName name) names = some options := by
  cases found : Table.get? (foldName name) names with
  | some other => rw [ofName, found, Except.ok.injEq, Option.some.injEq]
  | none =>
    rw [ofName, found]
    constructor
    · rintro ⟨⟩
    · rintro ⟨⟩

theorem severity_ofName_eq_ok {name : String} {s : Severity} :
    Severity.ofName name = .ok s ↔ Table.get? (foldName name) Severity.names = some s := by
  cases found : Table.get? (foldName name) Severity.names with
  | some other => rw [Severity.ofName, found, Except.ok.injEq, Option.some.injEq]
  | none =>
    rw [Severity.ofName, found]
    constructor
    · rintro ⟨⟩
    · rintro ⟨⟩

theorem severity_mem_all (s : Severity) : s ∈ Severity.all := by
  cases s <;> decide

/-- The two tables agree: every name of a severity is a name of its bit. -/
theorem severity_entries : ∀ entry ∈ Severity.names,
    Table.get? entry.1 names = some (ofSeverity entry.2) := by
  decide

theorem preset_entries : ∀ entry ∈ presets, (Table.get? entry.1 names).isSome = true := by
  decide

theorem entries_cover : ∀ entry ∈ names, ∀ s ∈ Severity.all,
    entry.2.Has s.index ↔ Table.get? entry.1 Severity.names = some s ∨
      (Table.get? entry.1 presets).any (s.atLeast ·) = true := by
  decide

theorem ofName_severity {name : String} {s : Severity} (named : Severity.ofName name = .ok s) :
    ofName name = .ok (ofSeverity s) :=
  ofName_eq_ok.mpr (severity_entries _ (Table.mem_of_get? (severity_ofName_eq_ok.mp named)))

theorem has_iff_covers {name : String} {options : Options} (known : ofName name = .ok options)
    (s : Severity) : options.Has s.index ↔ Covers name s := by
  have entry := Table.mem_of_get? (ofName_eq_ok.mp known)
  rw [entries_cover _ entry s (severity_mem_all s), Option.any_eq_true, ← severity_ofName_eq_ok]
  constructor
  · rintro (named | ⟨least, preset, within⟩)
    · exact .own named
    · exact .among preset within
  · intro covers
    cases covers with
    | own named => exact .inl named
    | among preset within => exact .inr ⟨_, preset, within⟩

theorem Covers.known {name : String} {s : Severity} (covers : Covers name s) : Known name := by
  cases covers with
  | own named => exact ⟨_, ofName_severity named⟩
  | among preset within =>
    have listed := preset_entries _ (Table.mem_of_get? preset)
    obtain ⟨options, found⟩ := Option.isSome_iff_exists.mp listed
    exact ⟨options, ofName_eq_ok.mpr found⟩

theorem named_iff_covers (list : List String) (s : Severity) :
    Named list s.index ↔ ∃ name ∈ list, Covers name s := by
  constructor
  · rintro ⟨name, member, options, known, set⟩
    exact ⟨name, member, (has_iff_covers known s).mp set⟩
  · rintro ⟨name, member, covers⟩
    obtain ⟨options, known⟩ := covers.known
    exact ⟨name, member, options, known, (has_iff_covers known s).mpr covers⟩

theorem named_append (xs ys : List String) (place : Nat) :
    Named (xs ++ ys) place ↔ Named xs place ∨ Named ys place := by
  simp only [Named, List.mem_append, or_and_right, exists_or]

theorem eq_of_has {a b : Options} (same : ∀ place, a.Has place ↔ b.Has place) : a = b := by
  rcases a with ⟨a⟩
  rcases b with ⟨b⟩
  congr 1
  apply UInt32.toBitVec_inj.mp
  apply BitVec.eq_of_getLsbD_eq
  intro place _
  exact Bool.eq_iff_iff.mpr (same place)

theorem ofNames_ok_iff (list : List String) :
    (∃ options, ofNames list = .ok options) ↔ ∀ name ∈ list, Known name := by
  constructor
  · rintro ⟨options, done⟩
    rcases known_or_first list with known | ⟨name, first⟩
    · exact known
    · cases done.symm.trans (ofNames_unknown first)
  · intro known
    obtain ⟨options, done, -⟩ := ofNames_known known
    exact ⟨options, done⟩

theorem ofNames_has {list : List String} {options : Options} (done : ofNames list = .ok options)
    (place : Nat) : options.Has place ↔ Named list place := by
  obtain ⟨other, same, bits⟩ := ofNames_known ((ofNames_ok_iff list).mp ⟨options, done⟩)
  cases done.symm.trans same
  exact bits place

theorem ofNames_eq_ok {list : List String} {options : Options} (known : ∀ name ∈ list, Known name)
    (named : ∀ place, Named list place ↔ options.Has place) : ofNames list = .ok options := by
  obtain ⟨other, done, bits⟩ := ofNames_known known
  rw [done, eq_of_has fun place => (bits place).trans (named place)]

theorem ofNames_append {xs ys : List String} {a b : Options} (first : ofNames xs = .ok a)
    (second : ofNames ys = .ok b) : ofNames (xs ++ ys) = .ok (a.union b) := by
  have known := (ofNames_ok_iff xs).mp ⟨a, first⟩
  have others := (ofNames_ok_iff ys).mp ⟨b, second⟩
  apply ofNames_eq_ok
  · intro name member
    exact (List.mem_append.mp member).elim (known name) (others name)
  · intro place
    rw [named_append, has_union, ofNames_has first, ofNames_has second]

theorem ofNames_append_ok_iff (xs ys : List String) :
    (∃ options, ofNames (xs ++ ys) = .ok options) ↔
      (∃ a, ofNames xs = .ok a) ∧ ∃ b, ofNames ys = .ok b := by
  rw [ofNames_ok_iff, ofNames_ok_iff, ofNames_ok_iff, List.forall_mem_append]

/-- Neither the order of names nor how often they come counts. -/
theorem ofNames_same_names {xs ys : List String} (same : ∀ name, name ∈ xs ↔ name ∈ ys)
    {options : Options} (done : ofNames xs = .ok options) : ofNames ys = .ok options := by
  have known := (ofNames_ok_iff xs).mp ⟨options, done⟩
  apply ofNames_eq_ok
  · intro name member
    exact known name ((same name).mpr member)
  · intro place
    rw [ofNames_has done]
    simp only [Named, same]

theorem ofNames_eq_error (list : List String) (error : Error) :
    ofNames list = .error error ↔
      ∃ name, FirstUnknown list name ∧ error = .unknownOption (foldName name) := by
  constructor
  · intro failed
    rcases known_or_first list with known | ⟨name, first⟩
    · obtain ⟨options, done, -⟩ := ofNames_known known
      cases failed.symm.trans done
    · have refused := ofNames_unknown first
      rw [failed, Except.error.injEq] at refused
      exact ⟨name, first, refused⟩
  · rintro ⟨name, first, rfl⟩
    exact ofNames_unknown first

theorem ignores_eq_false (options : Options) (s : Severity) :
    options.ignores s = false ↔ options.Has s.index := by
  rw [ignores, Bool.not_eq_eq_eq_not, Bool.not_false, contains_ofSeverity]

/-- A name of a severity is an option name of its bit. Two lists together are refused when one of
them is, for the first name that stands for nothing, without blanks around it and in small letters;
else they stand for the bits of both, so that order and repetition do not count. An instance whose
options were named gets a severity just if some name stands for it. -/
theorem ofNames_sets (xs ys : List String) :
    (∀ name s, Severity.ofName name = .ok s → ofNames [name] = .ok (ofSeverity s)) ∧
      ((∃ options, ofNames (xs ++ ys) = .ok options) ↔
        (∃ a, ofNames xs = .ok a) ∧ ∃ b, ofNames ys = .ok b) ∧
      (∀ a b, ofNames xs = .ok a → ofNames ys = .ok b →
        ofNames (xs ++ ys) = .ok ⟨a.bits ||| b.bits⟩) ∧
      (∀ options, (∀ name, name ∈ xs ↔ name ∈ ys) → ofNames xs = .ok options →
        ofNames ys = .ok options) ∧
      (∀ error, ofNames (xs ++ ys) = .error error ↔ ∃ name, FirstUnknown (xs ++ ys) name ∧
        error = .unknownOption (String.ofList (Text.toSmall (Text.trim name.toList)))) ∧
      ∀ options s, ofNames xs = .ok options →
        (options.ignores s = false ↔ ∃ name ∈ xs, Covers name s) := by
  refine ⟨?_, ofNames_append_ok_iff xs ys, ?_, ?_, ofNames_eq_error (xs ++ ys), ?_⟩
  · intro name s named
    have own := ofName_severity named
    apply ofNames_eq_ok
    · intro other member
      rw [List.mem_singleton.mp member]
      exact ⟨_, own⟩
    · intro place
      rw [named_cons own]
      refine or_iff_left ?_
      rintro ⟨other, member, -⟩
      cases member
  · intro a b first second
    exact ofNames_append first second
  · intro options same done
    exact ofNames_same_names same done
  · intro options s done
    rw [ignores_eq_false, ofNames_has done, named_iff_covers]

example : ofNames [" Warn\n", "up_error", "NoTime", "warning"] = .ok ⟨0x201F⟩ := by rfl

end StructuredLog.Options
