import Mathlib.Data.List.Dedup
import Mathlib.Logic.Relation
import StructuredLog.Proofs.Config.Calls

/-!
What a text comes to when every variable with a value is written out, and the variables in its value
in turn. Replacing one variable after another, in whatever order they are met, comes to that text
and to no other. A variable whose value leads back to itself cannot be written out, and a text that
calls it is refused.
-/

namespace StructuredLog.Config

open Json (Value Members)

/-- Every call with a value becomes what its value comes to; other calls stay. -/
inductive Unfolds (values : List Char → Option (List Piece)) : List Piece → List Piece → Prop where
  | nil : Unfolds values [] []
  | plain (c : Char) {rest result : List Piece} (later : Unfolds values rest result) :
      Unfolds values (.plain c :: rest) (.plain c :: result)
  | unknown {name : List Char} {rest result : List Piece} (unknown : values name = none)
      (later : Unfolds values rest result) :
      Unfolds values (.call name :: rest) (.call name :: result)
  | known {name : List Char} {value inner rest result : List Piece}
      (known : values name = some value) (own : Unfolds values value inner)
      (later : Unfolds values rest result) :
      Unfolds values (.call name :: rest) (inner ++ result)

def Refers (values : List Char → Option (List Piece)) (name other : List Char) : Prop :=
  ∃ value, values name = some value ∧ other ∈ calls value

/-- From a name one comes to a name that leads back to itself. -/
def Circular (values : List Char → Option (List Piece)) (name : List Char) : Prop :=
  ∃ other, Relation.ReflTransGen (Refers values) name other ∧
    Relation.TransGen (Refers values) other other

namespace Unfolds

variable {values : List Char → Option (List Piece)}

theorem unique {pieces first second : List Piece} (one : Unfolds values pieces first)
    (two : Unfolds values pieces second) : first = second := by
  induction one generalizing second with
  | nil =>
    cases two
    rfl
  | plain c later ih =>
    cases two with
    | plain _ others => rw [ih others]
  | unknown unknown later ih =>
    cases two with
    | unknown _ others => rw [ih others]
    | known known _ _ =>
      rw [unknown] at known
      cases known
  | known known own later inner ih =>
    cases two with
    | unknown unknown _ =>
      rw [known] at unknown
      cases unknown
    | known same other others =>
      rw [known] at same
      cases same
      rw [inner other, ih others]

theorem same {pieces : List Piece} (unknown : ∀ name ∈ calls pieces, values name = none) :
    Unfolds values pieces pieces := by
  induction pieces with
  | nil => exact .nil
  | cons piece rest ih =>
    cases piece with
    | plain c => exact .plain c (ih unknown)
    | call name =>
      have unknowns := List.forall_mem_cons.mp (show ∀ n ∈ name :: calls rest, _ from unknown)
      exact .unknown unknowns.1 (ih unknowns.2)

theorem of_append {first second result : List Piece}
    (both : Unfolds values (first ++ second) result) :
    ∃ one two, Unfolds values first one ∧ Unfolds values second two ∧ result = one ++ two := by
  induction first generalizing result with
  | nil => exact ⟨[], result, .nil, both, rfl⟩
  | cons piece rest ih =>
    cases both with
    | plain c later =>
      obtain ⟨one, two, front, back, rfl⟩ := ih later
      exact ⟨.plain c :: one, two, .plain c front, back, rfl⟩
    | unknown unknown later =>
      obtain ⟨one, two, front, back, rfl⟩ := ih later
      exact ⟨_ :: one, two, .unknown unknown front, back, rfl⟩
    | known known own later =>
      obtain ⟨one, two, front, back, rfl⟩ := ih later
      exact ⟨_ ++ one, two, .known known own front, back, (List.append_assoc _ _ _).symm⟩

/-- Putting the value of a name in beforehand makes no difference to what a text comes to. -/
theorem of_only {name : List Char} {value : List Piece} (known : values name = some value)
    {pieces result : List Piece} (after : Unfolds values (fill (only name value) pieces) result) :
    Unfolds values pieces result := by
  induction pieces generalizing result with
  | nil => exact after
  | cons piece rest ih =>
    rw [← List.singleton_append, fill_append] at after
    obtain ⟨one, two, front, back, rfl⟩ := of_append after
    have later := ih back
    cases piece with
    | plain c =>
      cases front with
      | plain _ nothing =>
        cases nothing
        exact .plain c later
    | call other =>
      by_cases here : other = name
      · subst here
        have put : fill (only other value) [.call other] = value := by simp [fill, only]
        exact .known known (put ▸ front) later
      · have kept : fill (only name value) [.call other] = [.call other] := by
          simp [fill, only, here]
        rw [kept] at front
        cases front with
        | unknown unknown nothing =>
          cases nothing
          exact .unknown unknown later
        | known other own nothing =>
          cases nothing
          rw [List.append_nil]
          exact .known other own later

/-- What comes to an end has no way to go on for ever. -/
theorem grounded {pieces result : List Piece} (unfolds : Unfolds values pieces result) :
    ∀ name ∈ calls pieces, Acc (fun other name => Refers values name other) name := by
  induction unfolds with
  | nil => exact List.forall_mem_nil _
  | plain c later ih => exact ih
  | @unknown name rest _ unknown later ih =>
    refine List.forall_mem_cons.mpr ⟨.intro name ?_, ih⟩
    rintro other ⟨value, known, -⟩
    rw [unknown] at known
    cases known
  | @known name value _ rest _ known own later inner ih =>
    refine List.forall_mem_cons.mpr ⟨.intro name ?_, ih⟩
    rintro other ⟨same, given, called⟩
    rw [known] at given
    cases given
    exact inner other called

end Unfolds

section Runs

variable {vars : Members} {values : List Char → Option (List Piece)}

theorem not_circular {name : List Char}
    (grounded : Acc (fun other name => Refers values name other) name) :
    ¬Circular values name := by
  induction grounded with
  | intro name _ ih =>
    rintro ⟨other, path, cycle⟩
    rcases path.cases_head with rfl | ⟨next, step, path⟩
    · -- The name itself leads back to itself, and so does the name after it.
      obtain ⟨next, step, back⟩ := Relation.TransGen.head'_iff.mp cycle
      exact ih next step ⟨next, .refl, .tail' back step⟩
    · exact ih next step ⟨other, path, cycle⟩

theorem substituteAtMost_unfolds (renders : Renders vars values) {left : Nat} {pieces : List Piece}
    (clear : ∀ piece ∈ pieces, piece.Clear) {out : List Char}
    (done : substituteAtMost vars left (spell pieces) = .ok out) :
    ∃ result, Unfolds values pieces result ∧ out = spell result := by
  induction left generalizing pieces with
  | zero =>
    rcases substitute_cases renders clear with ⟨unknown, same⟩ | ⟨name, value, -, -, round⟩
    · rw [same] at done
      cases done
      exact ⟨pieces, .same unknown, rfl⟩
    · rw [round] at done
      split at done <;> cases done
  | succ left ih =>
    rcases substitute_cases renders clear with ⟨unknown, same⟩ | ⟨name, value, -, known, round⟩
    · rw [same] at done
      cases done
      exact ⟨pieces, .same unknown, rfl⟩
    · rw [round] at done
      split at done
      · cases done
      · obtain ⟨result, unfolds, text⟩ := ih (renders.fill_clear known clear) done
        exact ⟨result, unfolds.of_only known, text⟩

theorem substituteAtMost_error {left : Nat} {text : List Char} {error : Error}
    (refused : substituteAtMost vars left text = .error error) :
    (∃ call, error = .badTemplate (.selfReference call)) ∨
      error = .badTemplate (.tooManySubstitutions maxSubstitutions) := by
  induction left generalizing text with
  | zero =>
    rw [substituteAtMost] at refused
    split at refused
    · cases refused
    · simp only at refused
      split at refused
      · cases refused
        exact .inl ⟨_, rfl⟩
      · cases refused
        exact .inr rfl
  | succ left ih =>
    rw [substituteAtMost] at refused
    split at refused
    · cases refused
    · simp only at refused
      split at refused
      · cases refused
        exact .inl ⟨_, rfl⟩
      · exact ih refused

/-- A text of plain characters and calls, over variables whose values are such texts. If it is
answered no call leads to a circle, and the answer is what the text comes to. If a call leads to a
circle the text is refused, by one of two limits. Where values call nothing, only more names than
the limit keep a text from being answered. -/
theorem substitute_unfolds (renders : Renders vars values) {pieces : List Piece}
    (clear : ∀ piece ∈ pieces, piece.Clear) :
    (∀ out, substitute vars (spell pieces) = .ok out →
      (∀ name ∈ calls pieces, ¬Circular values name) ∧
        ∃ result, Unfolds values pieces result ∧ out = spell result ∧
          ∀ other, Unfolds values pieces other → other = result) ∧
      ((∃ name ∈ calls pieces, Circular values name) →
        (∃ call, substitute vars (spell pieces) = .error (.badTemplate (.selfReference call))) ∨
          substitute vars (spell pieces) =
            .error (.badTemplate (.tooManySubstitutions maxSubstitutions))) ∧
      ((∀ name value, values name = some value → calls value = []) →
        ((calls pieces).filter fun name => (values name).isSome).dedup.length ≤ maxSubstitutions →
          ∃ out, substitute vars (spell pieces) = .ok out) := by
  have answered : ∀ out, substitute vars (spell pieces) = .ok out →
      (∀ name ∈ calls pieces, ¬Circular values name) ∧
        ∃ result, Unfolds values pieces result ∧ out = spell result ∧
          ∀ other, Unfolds values pieces other → other = result := by
    intro out done
    obtain ⟨result, unfolds, text⟩ := substituteAtMost_unfolds renders clear done
    have acyclic : ∀ name ∈ calls pieces, ¬Circular values name := fun name called =>
      not_circular (unfolds.grounded name called)
    exact ⟨acyclic, result, unfolds, text, fun other unfolded => unfolded.unique unfolds⟩
  refine ⟨answered, ?_, ?_⟩
  · rintro ⟨name, called, circular⟩
    cases done : substitute vars (spell pieces) with
    | ok out => exact absurd circular ((answered out done).1 name called)
    | error error =>
      rcases substituteAtMost_error done with ⟨call, rfl⟩ | rfl
      · exact .inl ⟨call, rfl⟩
      · exact .inr rfl
  · intro flat few
    refine ⟨_, substituteAtMost_flat renders flat few clear ?_⟩
    intro name called known
    rw [List.mem_dedup, List.mem_filter]
    exact ⟨called, Option.isSome_iff_ne_none.mpr known⟩

end Runs

def written (table : Table (List Piece)) : Members :=
  table.map fun entry => (entry.1, .str (String.ofList (spell entry.2)))

def writtenValues (table : Table (List Piece)) (name : List Char) : Option (List Piece) :=
  Table.get? (String.ofList name) table

theorem written_renders {table : Table (List Piece)}
    (clear : ∀ entry ∈ table, ∀ piece ∈ entry.2, piece.Clear) :
    Renders (written table) (writtenValues table) where
  same := by
    intro name
    clear clear
    unfold writtenValues written
    induction table with
    | nil => rfl
    | cons entry rest ih =>
      rcases entry with ⟨key, value⟩
      by_cases here : key = String.ofList name
      · simp [Table.get?, here, rendered]
      · simp [Table.get?, here, ih]
  clear := by
    intro name value known
    exact clear _ (Table.mem_of_get? known)

def references : Table (List Piece) :=
  [("a", [.call ['b']]), ("b", [.plain '+', .call ['a']]),
    ("o", [.plain '<', .call ['i'], .call ['i'], .plain '>']), ("i", [.plain 'x'])]

/-- A value is written out within a value while an unknown name stays, variables that call each
other are refused, and a value without calls is always put in. -/
theorem references_unfold :
    (substitute (written references) "(^^o^^)-(^^n^^)".toList = .ok "<xx>-(^^n^^)".toList ∧
        ¬Circular (writtenValues references) ['o'] ∧
        ∃ result, Unfolds (writtenValues references)
            [.call ['o'], .plain '-', .call ['n']] result ∧
          "<xx>-(^^n^^)".toList = spell result) ∧
      (Circular (writtenValues references) ['a'] ∧
        ∃ error, substitute (written references) "(^^o^^)(^^a^^)".toList = .error error) ∧
      ∃ out, substitute (written [("i", [.plain 'x'])]) "(^^i^^)(^^n^^)".toList = .ok out := by
  have plain : ∀ c : Char, c ≠ '^' → (Piece.plain c).Clear := fun _ other => other
  have call : ∀ c : Char, c ≠ '^' ∧ c ≠ '(' ∧ c ≠ ')' ∧ c ≠ '\n' → (Piece.call [c]).Clear :=
    fun _ clear => ⟨List.cons_ne_nil _ _, List.forall_mem_singleton.mpr clear⟩
  have renders : Renders (written references) (writtenValues references) := by
    apply written_renders
    simp [references, plain, call]
  have single : Renders (written [("i", [.plain 'x'])]) (writtenValues [("i", [.plain 'x'])]) := by
    apply written_renders
    simp [plain]
  have nested : ∀ piece ∈ [Piece.call ['o'], .plain '-', .call ['n']], piece.Clear := by
    simp [plain, call]
  have circling : ∀ piece ∈ [Piece.call ['o'], .call ['a']], piece.Clear := by simp [call]
  have unlike : ∀ piece ∈ [Piece.call ['i'], .call ['n']], piece.Clear := by simp [call]
  have answered := substitute_unfolds renders nested
  have refused := substitute_unfolds renders circling
  have flat := substitute_unfolds single unlike
  have done : substitute (written references) "(^^o^^)-(^^n^^)".toList =
      .ok "<xx>-(^^n^^)".toList := by rfl
  obtain ⟨acyclic, result, unfolds, text, -⟩ := answered.1 _ done
  have circle : Circular (writtenValues references) ['a'] := by
    refine ⟨['a'], .refl, .tail (.single (b := ['b']) ?_) ?_⟩
    · exact ⟨[.call ['b']], rfl, by decide⟩
    · exact ⟨[.plain '+', .call ['a']], rfl, by decide⟩
  refine ⟨⟨done, acyclic ['o'] (by decide), result, unfolds, text⟩, ⟨circle, ?_⟩, ?_⟩
  · rcases refused.2.1 ⟨['a'], by decide, circle⟩ with ⟨name, same⟩ | same
    · exact ⟨_, same⟩
    · exact ⟨_, same⟩
  · refine flat.2.2 ?_ (by decide)
    intro name value known
    have own := List.mem_singleton.mp (Table.mem_of_get? known)
    rw [(Prod.mk.inj own).2]
    rfl

end StructuredLog.Config
