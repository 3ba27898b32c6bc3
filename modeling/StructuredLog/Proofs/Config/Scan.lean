import StructuredLog.Proofs.Config.Calls
import StructuredLog.Proofs.Config.Pattern

/-!
Scanning a text for names. The names that are found are those that stand between marks, from the
left and without overlap: each begins as far left as one can, and is as short as one that begins
there can be.
-/

namespace StructuredLog.Config.Marks

/-- A name of at least one character on one line, between its marks, with what stands before and
after it. -/
structure Stands (marks : Marks) (text before name after : List Char) : Prop where
  text : text = before ++ (marks.around name ++ after)
  nonempty : name ≠ []
  line : '\n' ∉ name

/-- The name that is found first: none begins before it, and none that begins with it is shorter. -/
structure IsFirst (marks : Marks) (text before name after : List Char) : Prop where
  stands : marks.Stands text before name after
  leftmost : ∀ b n a, marks.Stands text b n a → before.length ≤ b.length
  shortest : ∀ n a, marks.Stands text before n a → name.length ≤ n.length

/-- The names of a text: the first one, and then those of what follows it. -/
inductive Scan (marks : Marks) : List Char → List (List Char) → Prop where
  | done {text : List Char} (none : ∀ before name after, ¬marks.Stands text before name after) :
      Scan marks text []
  | next {text before name after : List Char} {names : List (List Char)}
      (first : marks.IsFirst text before name after) (later : Scan marks after names) :
      Scan marks text (name :: names)

theorem nameBefore_line {closing : List Char} {started : Bool} {text name following : List Char}
    (found : nameBefore closing started text = some (name, following)) : '\n' ∉ name := by
  induction text generalizing started name with
  | nil => cases found
  | cons c rest ih =>
    rw [nameBefore] at found
    split at found
    · cases found
      exact List.not_mem_nil
    · split at found
      · cases found
      · next other =>
        obtain ⟨⟨later, behind⟩, inner, same⟩ := Option.map_eq_some_iff.mp found
        cases same
        rw [List.mem_cons, not_or]
        exact ⟨fun same => other same.symm, ih inner⟩

theorem nameBefore_least {closing : List Char} (closes : closing ≠ []) {started : Bool}
    {name after : List Char} (begun : started = true ∨ name ≠ []) (line : '\n' ∉ name) :
    ∃ found following,
      nameBefore closing started (name ++ (closing ++ after)) = some (found, following) ∧
        found.length ≤ name.length := by
  induction name generalizing started with
  | nil =>
    obtain rfl : started = true := begun.resolve_right fun nonempty => nonempty rfl
    rcases closing with _ | ⟨c, closing⟩
    · exact absurd rfl closes
    · have ends := Text.after?_append (c :: closing) after
      rw [List.cons_append] at ends
      refine ⟨[], after, ?_, Nat.le_refl _⟩
      rw [List.nil_append, List.cons_append, nameBefore, if_pos rfl, ends]
  | cons c name ih =>
    rw [List.mem_cons, not_or] at line
    obtain ⟨found, following, inner, short⟩ := ih (.inl rfl) line.2
    rw [List.cons_append, nameBefore]
    split
    · next behind _ => exact ⟨[], behind, rfl, Nat.zero_le _⟩
    · rw [if_neg fun same => line.1 same.symm, inner]
      exact ⟨c :: found, following, rfl, Nat.succ_le_succ short⟩

variable {marks : Marks}

theorem nameAtFront_stands (closes : marks.closing ≠ []) {text name after : List Char}
    (found : marks.nameAtFront text = some (name, after)) : marks.Stands text [] name after := by
  obtain ⟨inner, opens, ends⟩ := Option.bind_eq_some_iff.mp found
  obtain ⟨inside, nonempty, -⟩ := nameBefore_some closes ends
  refine ⟨?_, nonempty rfl, nameBefore_line ends⟩
  rw [Text.after?_eq_some.mp opens, inside, around]
  simp only [List.nil_append, List.append_assoc]

theorem nameAtFront_least (closes : marks.closing ≠ []) {text name after : List Char}
    (stands : marks.Stands text [] name after) :
    ∃ found following,
      marks.nameAtFront text = some (found, following) ∧ found.length ≤ name.length := by
  have opens : Text.after? marks.opening text = some (name ++ (marks.closing ++ after)) := by
    rw [Text.after?_eq_some, stands.text, around]
    simp only [List.nil_append, List.append_assoc]
  rw [nameAtFront, opens]
  exact nameBefore_least closes (.inr stands.nonempty) stands.line

theorem not_stands_nil (before name after : List Char) : ¬marks.Stands [] before name after := by
  intro stands
  have empty := (List.append_eq_nil_iff.mp stands.text.symm).2
  simp only [around, List.append_eq_nil_iff] at empty
  exact stands.nonempty empty.1.1.2

theorem stands_cons {c d : Char} {rest before name after : List Char} :
    marks.Stands (c :: rest) (d :: before) name after ↔
      c = d ∧ marks.Stands rest before name after := by
  constructor
  · rintro ⟨text, nonempty, line⟩
    obtain ⟨same, tail⟩ := List.cons.inj text
    exact ⟨same, tail, nonempty, line⟩
  · rintro ⟨rfl, text, nonempty, line⟩
    exact ⟨congrArg (c :: ·) text, nonempty, line⟩

theorem Scan.cons {c : Char} {rest : List Char} {names : List (List Char)}
    (front : ∀ name after, ¬marks.Stands (c :: rest) [] name after)
    (scan : marks.Scan rest names) : marks.Scan (c :: rest) names := by
  cases scan with
  | done none =>
    apply Scan.done
    intro before name after stands
    cases before with
    | nil => exact front name after stands
    | cons d before => exact none before name after (stands_cons.mp stands).2
  | @next _ before name after names first later =>
    have here : marks.IsFirst (c :: rest) (c :: before) name after := by
      refine ⟨stands_cons.mpr ⟨rfl, first.stands⟩, fun b n a stands => ?_, fun n a stands => ?_⟩
      · cases b with
        | nil => exact absurd stands (front n a)
        | cons d b => exact Nat.succ_le_succ (first.leftmost b n a (stands_cons.mp stands).2)
      · exact first.shortest n a (stands_cons.mp stands).2
    exact .next here later

theorem scan_names (closes : marks.closing ≠ []) (text : List Char) :
    marks.Scan text (marks.names text) := by
  induction size : text.length using Nat.strong_induction_on generalizing text with
  | _ count ih =>
    subst size
    cases text with
    | nil => exact .done not_stands_nil
    | cons c rest =>
      cases found : marks.nameAtFront (c :: rest) with
      | none =>
        have names : marks.names (c :: rest) = marks.names rest := by
          rw [names, names, namesFrom, found]
        rw [names]
        refine (ih rest.length (Nat.lt_succ_self _) rest rfl).cons fun name after stands => ?_
        obtain ⟨own, following, here, -⟩ := nameAtFront_least closes stands
        rw [found] at here
        cases here
      | some front =>
        rcases front with ⟨name, after⟩
        have stands := nameAtFront_stands closes found
        have shortest : ∀ n a, marks.Stands (c :: rest) [] n a → name.length ≤ n.length := by
          intro n a other
          obtain ⟨own, following, here, short⟩ := nameAtFront_least closes other
          rw [found] at here
          cases here
          exact short
        have split : c :: rest = marks.around name ++ after := stands.text
        cases whole : marks.around name with
        | nil =>
          simp only [around, List.append_eq_nil_iff] at whole
          exact absurd whole.1.2 stands.nonempty
        | cons d passed =>
          rw [whole, List.cons_append, List.cons.injEq] at split
          obtain ⟨rfl, rfl⟩ := split
          have names : marks.names (c :: (passed ++ after)) = name :: marks.names after := by
            rw [names, namesFrom, found]
            simp only [whole, List.length_cons, Nat.add_sub_cancel, namesFrom_skip, names]
          rw [names]
          refine .next ⟨stands, fun b _ _ _ => Nat.zero_le b.length, shortest⟩ ?_
          refine ih after.length ?_ after rfl
          rw [List.length_cons, List.length_append]
          omega

theorem IsFirst.unique {text before name after b n a : List Char}
    (one : marks.IsFirst text before name after) (two : marks.IsFirst text b n a) :
    name = n ∧ after = a := by
  have places : before.length = b.length :=
    Nat.le_antisymm (one.leftmost b n a two.stands) (two.leftmost before name after one.stands)
  obtain ⟨rfl, same⟩ := List.append_inj (one.stands.text.symm.trans two.stands.text) places
  have lengths : name.length = n.length :=
    Nat.le_antisymm (one.shortest n a two.stands) (two.shortest name after one.stands)
  simp only [around, List.append_assoc, List.append_cancel_left_eq] at same
  obtain ⟨rfl, rest⟩ := List.append_inj same lengths
  exact ⟨rfl, List.append_cancel_left rest⟩

theorem Scan.unique {text : List Char} {first second : List (List Char)}
    (one : marks.Scan text first) (two : marks.Scan text second) : first = second := by
  induction one generalizing second with
  | done none =>
    cases two with
    | done _ => rfl
    | next first _ => exact absurd first.stands (none _ _ _)
  | next first later ih =>
    cases two with
    | done none => exact absurd first.stands (none _ _ _)
    | next other others =>
      obtain ⟨rfl, rfl⟩ := first.unique other
      rw [ih others]

end StructuredLog.Config.Marks
