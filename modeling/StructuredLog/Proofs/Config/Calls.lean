import StructuredLog.Config.Substitution
import StructuredLog.Proofs.Text.Digits
import StructuredLog.Proofs.Text.Search

/-!
Texts that are put together of plain characters and calls of variables. When no mark character
stands outside the calls, the names that are found are those of the calls, and replacing the call
of a variable replaces these calls and nothing else.
-/

namespace StructuredLog.Config

open Json (Value Members)

inductive Piece where
  | plain (c : Char)
  | call (name : List Char)

/-- A name that cannot be taken for a mark or part of one. -/
structure IsName (name : List Char) : Prop where
  nonempty : name ≠ []
  clear : ∀ c ∈ name, c ≠ '^' ∧ c ≠ '(' ∧ c ≠ ')' ∧ c ≠ '\n'

namespace Piece

def text : Piece → List Char
  | .plain c => [c]
  | .call name => variableMarks.around name

def Clear : Piece → Prop
  | .plain c => c ≠ '^'
  | .call name => IsName name

def name? : Piece → Option (List Char)
  | .plain _ => none
  | .call name => some name

end Piece

def spell (pieces : List Piece) : List Char := pieces.flatMap Piece.text

def calls (pieces : List Piece) : List (List Char) := pieces.filterMap Piece.name?

theorem spell_cons (piece : Piece) (pieces : List Piece) :
    spell (piece :: pieces) = piece.text ++ spell pieces := List.flatMap_cons

theorem spell_append (first second : List Piece) :
    spell (first ++ second) = spell first ++ spell second := List.flatMap_append

theorem around_cons (name : List Char) :
    variableMarks.around name = '(' :: (['^', '^'] ++ name ++ ['^', '^', ')']) := rfl

/-- A call goes on behind its first character without another one. -/
theorem inner_pass {name : List Char} (isName : IsName name) :
    ∀ c ∈ ['^', '^'] ++ name ++ ['^', '^', ')'], c ≠ '(' := by
  intro c member
  simp only [List.mem_append, List.mem_cons, List.not_mem_nil, or_false] at member
  rcases member with ((rfl | rfl) | inside) | rfl | rfl | rfl
  · decide
  · decide
  · exact (isName.clear c inside).2.1
  · decide
  · decide
  · decide

theorem spell_head {pieces : List Piece} (clear : ∀ piece ∈ pieces, piece.Clear) :
    (spell pieces).head? ≠ some '^' := by
  cases pieces with
  | nil => exact fun same => by cases same
  | cons piece pieces =>
    have first := clear piece List.mem_cons_self
    cases piece with
    | plain c =>
      intro same
      exact first (Option.some.inj same)
    | call name =>
      rw [spell_cons, Piece.text, around_cons]
      exact fun same => by cases same

theorem after?_plain (part : List Char) (c : Char) {rest : List Char}
    (head : rest.head? ≠ some '^') : Text.after? ('(' :: '^' :: part) (c :: rest) = none := by
  by_cases bracket : c = '('
  · subst bracket
    cases rest with
    | nil => rfl
    | cons d rest =>
      have other : d ≠ '^' := fun same => head (congrArg some same)
      exact Text.after?_other _ rest other
  · exact Text.after?_other _ rest bracket

theorem nameBefore_name {name : List Char} (clear : ∀ c ∈ name, c ≠ '^' ∧ c ≠ '\n')
    {started : Bool} (some : started = true ∨ name ≠ []) (rest : List Char) :
    Marks.nameBefore variableMarks.closing started (name ++ (variableMarks.closing ++ rest)) =
      Option.some (name, rest) := by
  induction name generalizing started with
  | nil =>
    obtain rfl : started = true := some.resolve_right (fun nonempty => nonempty rfl)
    rfl
  | cons c name ih =>
    rw [List.forall_mem_cons] at clear
    have closes : Text.after? variableMarks.closing
        (c :: (name ++ (variableMarks.closing ++ rest))) = none :=
      Text.after?_other _ _ clear.1.1
    rw [List.cons_append, Marks.nameBefore, closes, ih clear.2 (.inl rfl)]
    cases started <;> simp only [clear.1.2, ↓reduceIte, Option.map_some, Bool.false_eq_true]

theorem nameAtFront_call {name : List Char} (isName : IsName name) (rest : List Char) :
    variableMarks.nameAtFront (variableMarks.around name ++ rest) = some (name, rest) := by
  have clear : ∀ c ∈ name, c ≠ '^' ∧ c ≠ '\n' := fun c member =>
    ⟨(isName.clear c member).1, (isName.clear c member).2.2.2⟩
  rw [Marks.nameAtFront, Marks.around, List.append_assoc, List.append_assoc, Text.after?_append]
  exact nameBefore_name clear (.inr isName.nonempty) rest

theorem namesFrom_skip (marks : Marks) (passed rest : List Char) :
    marks.namesFrom passed.length (passed ++ rest) = marks.namesFrom 0 rest := by
  induction passed with
  | nil => rfl
  | cons c passed ih => exact ih

theorem names_spell {pieces : List Piece} (clear : ∀ piece ∈ pieces, piece.Clear) :
    variableMarks.names (spell pieces) = calls pieces := by
  induction pieces with
  | nil => rfl
  | cons piece pieces ih =>
    rw [List.forall_mem_cons] at clear
    rw [Marks.names] at ih ⊢
    cases piece with
    | plain c =>
      have none : variableMarks.nameAtFront (c :: spell pieces) = none := by
        have opens : Text.after? variableMarks.opening (c :: spell pieces) = none :=
          after?_plain _ c (spell_head clear.2)
        rw [Marks.nameAtFront, opens]
        rfl
      change variableMarks.namesFrom 0 (c :: spell pieces) = calls pieces
      rw [Marks.namesFrom, none]
      exact ih clear.2
    | call name =>
      have found := nameAtFront_call clear.1 (spell pieces)
      rw [around_cons, List.cons_append] at found
      rw [spell_cons, Piece.text, around_cons, List.cons_append, Marks.namesFrom, found]
      exact congrArg (name :: ·) ((namesFrom_skip variableMarks _ _).trans (ih clear.2))

theorem name_taken {name : List Char} (isName : IsName name) (rest : List Char) :
    (name ++ (variableMarks.closing ++ rest)).takeWhile (· != '^') = name := by
  refine (Text.run_taken ?_ ?_).1
  · intro c member
    exact bne_iff_ne.mpr (isName.clear c member).1
  · intro c head
    cases head
    rfl

/-- The call of one name is not the beginning of the call of another. -/
theorem after?_call {name other : List Char} (isName : IsName name) (isOther : IsName other)
    (rest : List Char) :
    (Text.after? (variableMarks.around name) (variableMarks.around other ++ rest)).isSome =
      decide (other = name) := by
  by_cases same : other = name
  · rw [same, Text.after?_append, decide_eq_true rfl]
    rfl
  · rw [decide_eq_false same, ← Bool.not_eq_true, Option.isSome_iff_exists]
    rintro ⟨following, found⟩
    have equal := Text.after?_eq_some.mp found
    -- Both names end where the first mark character stands.
    simp only [Marks.around, List.append_assoc, List.append_cancel_left_eq] at equal
    have names := congrArg (List.takeWhile (· != '^')) equal
    rw [name_taken isOther, name_taken isName] at names
    exact same names

theorem occurs_spell {name : List Char} (isName : IsName name) {pieces : List Piece}
    (clear : ∀ piece ∈ pieces, piece.Clear) :
    Text.occurs (variableMarks.around name) (spell pieces) = decide (name ∈ calls pieces) := by
  induction pieces with
  | nil => rfl
  | cons piece pieces ih =>
    rw [List.forall_mem_cons] at clear
    cases piece with
    | plain c =>
      have none : Text.after? (variableMarks.around name) (c :: spell pieces) = none :=
        after?_plain _ c (spell_head clear.2)
      change Text.occurs (variableMarks.around name) (c :: spell pieces) = _
      rw [Text.occurs, none, ih clear.2]
      rfl
    | call other =>
      have front := after?_call isName clear.1 (spell pieces)
      rw [around_cons other, List.cons_append] at front
      rw [spell_cons, Piece.text, around_cons other, List.cons_append, Text.occurs, front]
      rw [around_cons name, Text.occurs_pass _ _ (inner_pass clear.1), ← around_cons, ih clear.2]
      have called : calls (.call other :: pieces) = other :: calls pieces := rfl
      rw [called]
      simp only [List.mem_cons, Bool.decide_or, eq_comm]

def fill (values : List Char → Option (List Piece)) (pieces : List Piece) : List Piece :=
  pieces.flatMap fun
    | .plain c => [.plain c]
    | .call name => (values name).getD [.call name]

def only (name : List Char) (value : List Piece) : List Char → Option (List Piece) :=
  fun other => if other = name then some value else none

theorem replaceAll_spell {name : List Char} (isName : IsName name) (value : List Piece)
    {pieces : List Piece} (clear : ∀ piece ∈ pieces, piece.Clear) :
    Text.replaceAll (variableMarks.around name) (spell value) (spell pieces) =
      spell (fill (only name value) pieces) := by
  induction pieces with
  | nil => rfl
  | cons piece pieces ih =>
    rw [List.forall_mem_cons] at clear
    rw [Text.replaceAll] at ih ⊢
    cases piece with
    | plain c =>
      have none : Text.after? (variableMarks.around name) (c :: spell pieces) = none :=
        after?_plain _ c (spell_head clear.2)
      change Text.replaceFrom _ _ 0 (c :: spell pieces) = c :: spell (fill (only name value) pieces)
      rw [Text.replaceFrom, none, ← ih clear.2]
      rfl
    | call other =>
      have front := after?_call isName clear.1 (spell pieces)
      rw [around_cons other, List.cons_append] at front
      rw [spell_cons, Piece.text, around_cons other, List.cons_append, Text.replaceFrom, front]
      by_cases same : other = name
      · subst same
        have put : fill (only other value) (.call other :: pieces) =
            value ++ fill (only other value) pieces := by
          simp only [fill, only, List.flatMap_cons, ↓reduceIte, Option.getD_some]
        rw [decide_eq_true rfl, if_pos rfl, put, spell_append, ← ih clear.2]
        exact congrArg (spell value ++ ·) (Text.replaceFrom_skip _ _ _ _)
      · have kept : fill (only name value) (.call other :: pieces) =
            .call other :: fill (only name value) pieces := by
          simp only [fill, only, List.flatMap_cons, same, ↓reduceIte, Option.getD_none,
            List.singleton_append]
        rw [decide_eq_false same, kept, spell_cons, ← ih clear.2]
        exact congrArg ('(' :: ·) (Text.replaceFrom_pass _ _ _ (inner_pass clear.1) _)

theorem spell_plain (text : List Char) : spell (text.map .plain) = text := by
  induction text with
  | nil => rfl
  | cons c rest ih => exact congrArg (c :: ·) ih

theorem calls_plain (text : List Char) : calls (text.map .plain) = [] := by
  induction text with
  | nil => rfl
  | cons c rest ih => exact ih

theorem mem_fill {values : List Char → Option (List Piece)} {pieces : List Piece} {piece : Piece}
    (member : piece ∈ fill values pieces) :
    piece ∈ pieces ∨ ∃ name value, values name = some value ∧ piece ∈ value := by
  obtain ⟨original, there, own⟩ := List.mem_flatMap.mp member
  cases original with
  | plain c =>
    obtain rfl := List.mem_singleton.mp own
    exact .inl there
  | call name =>
    cases known : values name with
    | none =>
      simp only [known, Option.getD_none, List.mem_singleton] at own
      exact .inl (own ▸ there)
    | some value =>
      simp only [known, Option.getD_some] at own
      exact .inr ⟨name, value, known, own⟩

theorem fill_append (values : List Char → Option (List Piece)) (first second : List Piece) :
    fill values (first ++ second) = fill values first ++ fill values second :=
  List.flatMap_append

/-- It makes no difference to put a value in beforehand, as long as it is filled as well. -/
theorem fill_only {values : List Char → Option (List Piece)} {name : List Char}
    {value : List Piece} (known : values name = some (fill values value)) (pieces : List Piece) :
    fill values (fill (only name value) pieces) = fill values pieces := by
  induction pieces with
  | nil => rfl
  | cons piece pieces ih =>
    cases piece with
    | plain c => exact congrArg (.plain c :: ·) ih
    | call other =>
      rw [← List.singleton_append, fill_append, fill_append, fill_append, ih]
      congr 1
      by_cases same : other = name
      · subst same
        simp [fill, only, known]
      · simp [fill, only, same]

theorem fill_none {values : List Char → Option (List Piece)} {pieces : List Piece}
    (unknown : ∀ name ∈ calls pieces, values name = none) : fill values pieces = pieces := by
  induction pieces with
  | nil => rfl
  | cons piece pieces ih =>
    cases piece with
    | plain c => exact congrArg (.plain c :: ·) (ih unknown)
    | call name =>
      have unknowns := List.forall_mem_cons.mp (show ∀ n ∈ name :: calls pieces, _ from unknown)
      rw [← List.singleton_append, fill_append, ih unknowns.2]
      simp [fill, unknowns.1]

theorem isName_of_called {name : List Char} {pieces : List Piece}
    (clear : ∀ piece ∈ pieces, piece.Clear) (called : name ∈ calls pieces) : IsName name := by
  obtain ⟨piece, member, same⟩ := List.mem_filterMap.mp called
  cases piece with
  | plain c => cases same
  | call other =>
    cases same
    exact clear _ member

structure Renders (vars : Members) (values : List Char → Option (List Piece)) : Prop where
  same : ∀ name, (Table.get? (String.ofList name) vars).map rendered = (values name).map spell
  clear : ∀ name value, values name = some value → ∀ piece ∈ value, piece.Clear

variable {vars : Members} {values : List Char → Option (List Piece)}

theorem Renders.fill_clear (renders : Renders vars values) {name : List Char} {value : List Piece}
    (known : values name = some value) {pieces : List Piece}
    (clear : ∀ piece ∈ pieces, piece.Clear) :
    ∀ piece ∈ fill (only name value) pieces, piece.Clear := by
  intro piece member
  rcases mem_fill member with old | ⟨other, new, given, own⟩
  · exact clear piece old
  · obtain ⟨-, same⟩ := Option.ite_none_right_eq_some.mp given
    cases same
    exact renders.clear name value known piece own

/-- What one round of replacing does: nothing is left to replace, or it finds a name with a value.
-/
theorem substitute_cases (renders : Renders vars values) {pieces : List Piece}
    (clear : ∀ piece ∈ pieces, piece.Clear) :
    ((∀ name ∈ calls pieces, values name = none) ∧
      ∀ left, substituteAtMost vars left (spell pieces) = .ok (spell pieces)) ∨
    ∃ name value, name ∈ calls pieces ∧ values name = some value ∧
      ∀ left, substituteAtMost vars left (spell pieces) =
        if name ∈ calls value then
          .error (.badTemplate (.selfReference (String.ofList (variableMarks.around name))))
        else match left with
          | 0 => .error (.badTemplate (.tooManySubstitutions maxSubstitutions))
          | left + 1 =>
              substituteAtMost vars left (spell (fill (only name value) pieces)) := by
  cases first : firstDefined? vars (spell pieces) with
  | none =>
    refine .inl ⟨?_, ?_⟩
    · intro name called
      rw [firstDefined?, names_spell clear, List.findSome?_eq_none_iff] at first
      have undefined := Option.map_eq_none_iff.mp (first name called)
      have same := renders.same name
      rw [undefined] at same
      exact Option.map_eq_none_iff.mp same.symm
    · intro left
      rw [substituteAtMost, first]
  | some found =>
    rcases found with ⟨name, v⟩
    have found := first
    rw [firstDefined?, names_spell clear] at found
    obtain ⟨other, called, given⟩ := List.exists_of_findSome?_eq_some found
    obtain ⟨w, defined, same⟩ := Option.map_eq_some_iff.mp given
    cases same
    have text := renders.same name
    rw [defined] at text
    obtain ⟨value, known, spelled⟩ := Option.map_eq_some_iff.mp text.symm
    refine .inr ⟨name, value, called, known, fun left => ?_⟩
    have isName := isName_of_called clear called
    rw [substituteAtMost, first]
    simp only [← spelled, occurs_spell isName (renders.clear name value known), decide_eq_true_eq]
    split
    · rfl
    · cases left with
      | zero => rfl
      | succ left => rw [replaceAll_spell isName value clear]

theorem calls_append (first second : List Piece) :
    calls (first ++ second) = calls first ++ calls second := List.filterMap_append

theorem calls_fill (values : List Char → Option (List Piece)) (pieces : List Piece) :
    calls (fill values pieces) =
      (calls pieces).flatMap fun name => (values name).elim [name] calls := by
  induction pieces with
  | nil => rfl
  | cons piece pieces ih =>
    rw [← List.singleton_append, fill_append, calls_append, ih]
    cases piece with
    | plain c => rfl
    | call name =>
      have called : calls ([.call name] ++ pieces) = name :: calls pieces := rfl
      rw [called, List.flatMap_cons]
      congr 1
      cases known : values name <;> simp [fill, known, Piece.name?, calls]

theorem called_other {name other : List Char} {value pieces : List Piece} (flat : calls value = [])
    (called : other ∈ calls (fill (only name value) pieces)) :
    other ∈ calls pieces ∧ other ≠ name := by
  rw [calls_fill] at called
  obtain ⟨first, there, own⟩ := List.mem_flatMap.mp called
  by_cases same : first = name
  · simp [only, same, flat] at own
  · simp only [only, same, ↓reduceIte, Option.elim_none, List.mem_singleton] at own
    exact own ▸ ⟨there, same⟩

/-- Where values call nothing, all that is called and known is filled in, one name after another. -/
theorem substituteAtMost_flat (renders : Renders vars values)
    (flat : ∀ name value, values name = some value → calls value = []) {left : Nat}
    {pending : List (List Char)} (enough : pending.length ≤ left) {pieces : List Piece}
    (clear : ∀ piece ∈ pieces, piece.Clear)
    (covers : ∀ name ∈ calls pieces, values name ≠ none → name ∈ pending) :
    substituteAtMost vars left (spell pieces) = .ok (spell (fill values pieces)) := by
  -- Every round takes the name that it fills in from the pending ones.
  induction left generalizing pending pieces with
  | zero =>
    rcases substitute_cases renders clear with ⟨unknown, same⟩ | ⟨name, value, called, known, -⟩
    · rw [same, fill_none unknown]
    · have waits := covers name called (known ▸ Option.some_ne_none value)
      have empty := List.length_eq_zero_iff.mp (Nat.le_zero.mp enough)
      rw [empty] at waits
      cases waits
  | succ left ih =>
    rcases substitute_cases renders clear with ⟨unknown, same⟩ | ⟨name, value, called, known, round⟩
    · rw [same, fill_none unknown]
    · have waits := covers name called (known ▸ Option.some_ne_none value)
      have calm := flat name value known
      have fewer : (pending.erase name).length ≤ left := by
        rw [List.length_erase_of_mem waits]
        omega
      have others : ∀ other ∈ calls (fill (only name value) pieces),
          values other ≠ none → other ∈ pending.erase name := by
        intro other again defined
        obtain ⟨before, differ⟩ := called_other calm again
        exact (List.mem_erase_of_ne differ).mpr (covers other before defined)
      have value_kept : values name = some (fill values value) := by
        rw [known, fill_none]
        rw [calm]
        exact List.forall_mem_nil _
      rw [round, if_neg (calm ▸ List.not_mem_nil), ← fill_only value_kept]
      exact ih fewer (renders.fill_clear known clear) others

end StructuredLog.Config
