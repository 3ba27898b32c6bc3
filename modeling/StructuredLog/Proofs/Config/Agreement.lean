import StructuredLog.Proofs.Config.Calls
import StructuredLog.Proofs.Json.Respelling

/-!
Replacing variables in the text of a document comes to the same as replacing them in its strings and
keys, as long as neither names nor values have anything that a text would have to escape. Then the
text of a document is its pieces, the values fill them in where they stand, and reading the text
again puts equal keys together just as the walk over the document does.
-/

namespace StructuredLog.Config

open Json (Value Members Style)

section Tree

variable {vars : Members} {f : String → String}

theorem substituteItems_respell {items : List Value}
    (each : ∀ v ∈ items, substituteTree vars v = .ok (v.respell f).collapsed) :
    substituteItems vars items = .ok (Json.collapsedItems (Json.respellItems f items)) := by
  induction items with
  | nil => rfl
  | cons v rest ih =>
    rw [List.forall_mem_cons] at each
    rw [substituteItems, each.1, ih each.2]
    rfl

theorem substituteMembers_respell {members : List (String × Value)}
    (keys : ∀ entry ∈ members, substituteString vars entry.1 = .ok (f entry.1))
    (each : ∀ entry ∈ members, substituteTree vars entry.2 = .ok (entry.2.respell f).collapsed)
    (done : Members) :
    substituteMembers vars done members =
      .ok (Json.collapsedMembers done (Json.respellMembers f members)) := by
  induction members generalizing done with
  | nil => rfl
  | cons entry rest ih =>
    rcases entry with ⟨key, v⟩
    rw [List.forall_mem_cons] at keys each
    rw [substituteMembers, keys.1, each.1]
    exact ih keys.2 each.2 _

theorem substituteTree_respell {v : Value}
    (spelled : v.Spelled fun s => substituteString vars s = .ok (f s)) :
    substituteTree vars v = .ok (v.respell f).collapsed := by
  induction spelled with
  | null => rfl
  | bool b => rfl
  | num n => rfl
  | str own =>
    rw [substituteTree, own]
    rfl
  | arr each ih =>
    rw [substituteTree, substituteItems_respell ih]
    rfl
  | obj keys each ih =>
    rw [substituteTree, substituteMembers_respell keys ih]
    rfl

end Tree

theorem escapeChar_markless {c : Char} (markless : c ≠ '^') : '^' ∉ Json.escapeChar c := by
  have digits : ∀ i : Fin 16, '^' ≠ Json.hexDigit i := by decide
  rcases Json.escapeChar_cases c with ⟨l, same, known, -⟩ | ⟨control, same⟩ | ⟨same, -⟩
  · have letter : '^' ≠ l := by
      rintro rfl
      cases known
    simp [same, letter]
  · have high := digits ⟨c.toNat / 16, by omega⟩
    have low := digits ⟨c.toNat % 16, by omega⟩
    simp [same, high, low]
  · simp [same, markless.symm]

def Piece.Quotable : Piece → Prop
  | .plain c => c ≠ '^'
  | .call name => name ≠ [] ∧ ∀ c ∈ name, c ≠ '^' ∧ c ≠ '(' ∧ c ≠ ')' ∧ Json.Unescaped c

theorem Piece.Quotable.clear {piece : Piece} (quotable : piece.Quotable) : piece.Clear := by
  cases piece with
  | plain c => exact quotable
  | call name =>
    refine ⟨quotable.1, fun c member => ?_⟩
    obtain ⟨mark, opening, closing, -, -, shown⟩ := quotable.2 c member
    refine ⟨mark, opening, closing, ?_⟩
    rintro rfl
    exact absurd shown (by decide)

/-- A string of plain characters and calls. -/
def WellFormed (s : String) : Prop :=
  ∃ pieces : List Piece, (∀ piece ∈ pieces, piece.Quotable) ∧ s.toList = spell pieces

/-- The values of variables stand for themselves between quotes, and have no marks. -/
def Tame (vars : Members) : Prop :=
  ∀ entry ∈ vars, ∀ c ∈ rendered entry.2, c ≠ '^' ∧ Json.Unescaped c

def flatValues (vars : Members) (name : List Char) : Option (List Piece) :=
  (Table.get? (String.ofList name) vars).map fun v => (rendered v).map .plain

section Pieces

variable {vars : Members}

theorem flatValues_some {name : List Char} {value : List Piece}
    (known : flatValues vars name = some value) :
    ∃ v, (String.ofList name, v) ∈ vars ∧ value = (rendered v).map .plain := by
  obtain ⟨v, found, same⟩ := Option.map_eq_some_iff.mp known
  exact ⟨v, Table.mem_of_get? found, same.symm⟩

theorem renders_flat (tame : Tame vars) : Renders vars (flatValues vars) where
  same := by
    intro name
    rw [flatValues, Option.map_map]
    cases Table.get? (String.ofList name) vars with
    | none => rfl
    | some v => exact congrArg some (spell_plain (rendered v)).symm
  clear := by
    intro name value known piece member
    obtain ⟨v, there, rfl⟩ := flatValues_some known
    obtain ⟨c, own, rfl⟩ := List.mem_map.mp member
    exact (tame _ there c own).1

def Becomes (vars : Members) (text result : List Char) : Prop :=
  ∃ pieces, (∀ piece ∈ pieces, piece.Clear) ∧ text = spell pieces ∧
    result = spell (fill (flatValues vars) pieces)

theorem Becomes.append {first second one two : List Char} (left : Becomes vars first one)
    (right : Becomes vars second two) : Becomes vars (first ++ second) (one ++ two) := by
  obtain ⟨pieces, clear, rfl, rfl⟩ := left
  obtain ⟨others, clears, rfl, rfl⟩ := right
  refine ⟨pieces ++ others, List.forall_mem_append.mpr ⟨clear, clears⟩, ?_, ?_⟩
  · exact (spell_append pieces others).symm
  · rw [fill_append, spell_append]

theorem becomes_same {text : List Char} (markless : '^' ∉ text) : Becomes vars text text := by
  have clear : ∀ c ∈ text, (Piece.plain c).Clear := fun c member same => markless (same ▸ member)
  refine ⟨text.map .plain, List.forall_mem_map.mpr clear, (spell_plain text).symm, ?_⟩
  have calm : ∀ name ∈ calls (text.map .plain), flatValues vars name = none := by
    rw [calls_plain]
    exact List.forall_mem_nil _
  rw [fill_none calm, spell_plain]

theorem substitute_becomes (tame : Tame vars) (few : vars.length ≤ maxSubstitutions)
    {text result : List Char} (becomes : Becomes vars text result) :
    substitute vars text = .ok result := by
  obtain ⟨pieces, clear, rfl, rfl⟩ := becomes
  have flat : ∀ name value, flatValues vars name = some value → calls value = [] := by
    intro name value known
    obtain ⟨v, -, rfl⟩ := flatValues_some known
    exact calls_plain _
  have enough : (vars.map fun entry => entry.1.toList).length ≤ maxSubstitutions := by
    rw [List.length_map]
    exact few
  refine substituteAtMost_flat (renders_flat tame) flat enough clear ?_
  intro name _ known
  obtain ⟨value, given⟩ := Option.ne_none_iff_exists'.mp known
  obtain ⟨v, member, -⟩ := flatValues_some given
  exact List.mem_map.mpr ⟨_, member, String.toList_ofList⟩

/-- A call stands for itself between quotes, and so does what it becomes. -/
theorem spell_unescaped (tame : Tame vars) {name : List Char}
    (quotable : (Piece.call name).Quotable) :
    (∀ c ∈ spell [.call name], Json.Unescaped c) ∧
      ∀ c ∈ spell (fill (flatValues vars) [.call name]), Json.Unescaped c := by
  have own : ∀ c ∈ spell [.call name], Json.Unescaped c := by
    have around : spell [.call name] = ['(', '^', '^'] ++ name ++ ['^', '^', ')'] :=
      List.append_nil _
    have opening : ∀ c ∈ ['(', '^', '^'], Json.Unescaped c := by simp [Json.Unescaped]
    have closing : ∀ c ∈ ['^', '^', ')'], Json.Unescaped c := by simp [Json.Unescaped]
    rw [around]
    refine List.forall_mem_append.mpr ⟨List.forall_mem_append.mpr ⟨opening, ?_⟩, closing⟩
    exact fun c member => (quotable.2 c member).2.2.2
  refine ⟨own, ?_⟩
  cases known : flatValues vars name with
  | none =>
    have calm : ∀ other ∈ calls [.call name], flatValues vars other = none :=
      List.forall_mem_singleton.mpr known
    rw [fill_none calm]
    exact own
  | some value =>
    obtain ⟨v, there, rfl⟩ := flatValues_some known
    have filled : fill (flatValues vars) [.call name] = (rendered v).map .plain := by
      simp only [fill, List.flatMap_cons, List.flatMap_nil, known, Option.getD_some,
        List.append_nil]
    rw [filled, spell_plain]
    exact fun c member => (tame _ there c member).2

/-- Escaping does not come between a call and its value. -/
theorem becomes_escaped (tame : Tame vars) {pieces : List Piece}
    (quotable : ∀ piece ∈ pieces, piece.Quotable) :
    Becomes vars (Json.escape (spell pieces))
      (Json.escape (spell (fill (flatValues vars) pieces))) := by
  induction pieces with
  | nil => exact becomes_same List.not_mem_nil
  | cons piece pieces ih =>
    rw [List.forall_mem_cons] at quotable
    rw [← List.singleton_append, fill_append, spell_append, spell_append, Json.escape_append,
      Json.escape_append]
    refine Becomes.append ?_ (ih quotable.2)
    cases piece with
    | plain c =>
      have escaped : Json.escape [c] = Json.escapeChar c := List.append_nil _
      exact becomes_same (escaped ▸ escapeChar_markless quotable.1)
    | call name =>
      have whole := spell_unescaped tame quotable.1
      refine ⟨[.call name], List.forall_mem_singleton.mpr quotable.1.clear, ?_, ?_⟩
      · exact Json.escape_unescaped whole.1
      · exact Json.escape_unescaped whole.2

/-- One string is another one with the values of variables in the place of their calls. -/
def Fills (vars : Members) (s result : String) : Prop :=
  ∃ pieces : List Piece, (∀ piece ∈ pieces, piece.Quotable) ∧ s.toList = spell pieces ∧
    result.toList = spell (fill (flatValues vars) pieces)

def filled (vars : Members) (s : String) : String :=
  match substituteString vars s with
  | .ok result => result
  | .error _ => s

theorem substituteString_fills (tame : Tame vars) (few : vars.length ≤ maxSubstitutions)
    {s : String} (wellFormed : WellFormed s) :
    substituteString vars s = .ok (filled vars s) ∧ Fills vars s (filled vars s) := by
  obtain ⟨pieces, quotable, text⟩ := wellFormed
  have clear : ∀ piece ∈ pieces, piece.Clear := fun piece member => (quotable piece member).clear
  have substituted : substituteString vars s =
      .ok (String.ofList (spell (fill (flatValues vars) pieces))) := by
    rw [substituteString, text, substitute_becomes tame few ⟨pieces, clear, rfl, rfl⟩]
    rfl
  have result : filled vars s = String.ofList (spell (fill (flatValues vars) pieces)) := by
    rw [filled, substituted]
  rw [result]
  exact ⟨substituted, pieces, quotable, text, String.toList_ofList⟩

theorem Fills.becomes (tame : Tame vars) {s result : String} (fills : Fills vars s result) :
    Becomes vars (Json.stringText s) (Json.stringText result) := by
  obtain ⟨pieces, quotable, text, filled⟩ := fills
  have quote : Becomes vars ['"'] ['"'] := becomes_same (by decide)
  rw [Json.stringText, Json.stringText, text, filled]
  exact (quote.append (becomes_escaped tame quotable)).append quote

theorem becomes_items {items : List Value} (f : String → String)
    (each : ∀ v ∈ items, Becomes vars (v.text .compact) ((v.respell f).text .compact)) :
    Becomes vars (Json.itemsText .compact items)
      (Json.itemsText .compact (Json.respellItems f items)) := by
  induction items with
  | nil => exact becomes_same List.not_mem_nil
  | cons v rest ih =>
    rw [List.forall_mem_cons] at each
    have comma : Becomes vars [','] [','] := becomes_same (by decide)
    rw [Json.respellItems, Json.itemsText, Json.itemsText]
    refine Becomes.append each.1 ?_
    cases rest with
    | nil => exact becomes_same List.not_mem_nil
    | cons next more => exact comma.append (ih each.2)

theorem becomes_members {members : List (String × Value)} {f : String → String}
    (keys : ∀ entry ∈ members, Becomes vars (Json.stringText entry.1) (Json.stringText (f entry.1)))
    (each : ∀ entry ∈ members,
      Becomes vars (entry.2.text .compact) ((entry.2.respell f).text .compact)) :
    Becomes vars (Json.membersText .compact members)
      (Json.membersText .compact (Json.respellMembers f members)) := by
  induction members with
  | nil => exact becomes_same List.not_mem_nil
  | cons entry rest ih =>
    rcases entry with ⟨key, v⟩
    rw [List.forall_mem_cons] at keys each
    have colon : Becomes vars [':'] [':'] := becomes_same (by decide)
    have comma : Becomes vars [','] [','] := becomes_same (by decide)
    rw [Json.respellMembers, Json.membersText, Json.membersText]
    refine Becomes.append ((keys.1.append colon).append each.1) ?_
    cases rest with
    | nil => exact becomes_same List.not_mem_nil
    | cons next more => exact comma.append (ih keys.2 each.2)

theorem number_markless (i : Int) : '^' ∉ Json.intText i := by
  intro member
  have numeral := (Json.intText_number i).numeral '^' member
  cases numeral

/-- The text of a document becomes the text of the document in which each string is replaced by
itself. -/
theorem becomes_text {f : String → String} {v : Value}
    (spelled : v.Spelled fun s => Becomes vars (Json.stringText s) (Json.stringText (f s)))
    (whole : v.Whole) : Becomes vars (v.text .compact) ((v.respell f).text .compact) := by
  induction spelled with
  | null => exact becomes_same (by decide)
  | bool b => cases b <;> exact becomes_same (by decide)
  | num n =>
    cases whole with
    | integer n => exact becomes_same (number_markless n.val)
  | str own => exact own
  | @arr items each ih =>
    cases whole with
    | arr wholes =>
      have inner := becomes_items f fun v member => ih v member (wholes v member)
      have opening : Becomes vars ['['] ['['] := becomes_same (by decide)
      have closing : Becomes vars [']'] [']'] := becomes_same (by decide)
      rw [Value.respell]
      cases items with
      | nil => exact opening.append closing
      | cons v rest =>
        rw [Json.respellItems, Json.text_arr (List.cons_ne_nil _ _),
          Json.text_arr (List.cons_ne_nil _ _)]
        exact (opening.append inner).append closing
  | @obj members keys each ih =>
    cases whole with
    | obj wholes =>
      have inner := becomes_members keys fun entry member => ih entry member (wholes entry member)
      have opening : Becomes vars ['{'] ['{'] := becomes_same (by decide)
      have closing : Becomes vars ['}'] ['}'] := becomes_same (by decide)
      rw [Value.respell]
      cases members with
      | nil => exact opening.append closing
      | cons entry rest =>
        rw [Json.respellMembers, Json.text_obj (List.cons_ne_nil _ _),
          Json.text_obj (List.cons_ne_nil _ _)]
        exact (opening.append inner).append closing

/-- In the text of a document or in its strings and keys: what comes of it is the document with
every string and key filled in. Of members whose keys become equal the last value stays, at the
place of the first. -/
theorem replaceVariables_agree (tame : Tame vars) (few : vars.length ≤ maxSubstitutions) {v : Value}
    (spelled : v.Spelled WellFormed) (whole : v.Whole)
    (readable : Json.read (v.text .compact) = .ok v) :
    (∀ s, WellFormed s → Fills vars s (filled vars s)) ∧
      replaceVariables .text vars v = .ok (v.respell (filled vars)).collapsed ∧
      replaceVariables .tree vars v = .ok (v.respell (filled vars)).collapsed := by
  have fills : ∀ s, WellFormed s → Fills vars s (filled vars s) := fun s wellFormed =>
    (substituteString_fills tame few wellFormed).2
  have strings := spelled.imp fun s wellFormed => (substituteString_fills tame few wellFormed).1
  have becomes := spelled.imp fun s wellFormed => (fills s wellFormed).becomes tame
  have texts := becomes_text becomes whole
  have shallow := Json.respell_depth (filled vars) (Json.read_depth readable)
  refine ⟨fills, ?_, substituteTree_respell strings⟩
  rw [replaceVariables, substituteText, substitute_becomes tame few texts]
  simp only [bind, Except.bind, Json.read_text (Json.respell_whole _ whole) shallow .compact]

end Pieces

def meeting : Value := .obj [("(^^a^^)", .bool true), ("k", .str "x(^^a^^)")]

theorem keys_meet :
    replaceVariables .text [("a", .str "k")] meeting = .ok (.obj [("k", .str "xk")]) ∧
      replaceVariables .tree [("a", .str "k")] meeting = .ok (.obj [("k", .str "xk")]) := by
  have tame : Tame [("a", .str "k")] := by
    refine List.forall_mem_singleton.mpr ?_
    simp [rendered, Json.Unescaped]
  have call : (Piece.call ['a']).Quotable := by
    refine ⟨by decide, ?_⟩
    simp [Json.Unescaped]
  have first : WellFormed "(^^a^^)" := ⟨[.call ['a']], List.forall_mem_singleton.mpr call, rfl⟩
  have second : WellFormed "k" :=
    ⟨[.plain 'k'], List.forall_mem_singleton.mpr (by decide : 'k' ≠ '^'), rfl⟩
  have third : WellFormed "x(^^a^^)" :=
    ⟨[.plain 'x', .call ['a']], List.forall_mem_cons.mpr
      ⟨(by decide : 'x' ≠ '^'), List.forall_mem_singleton.mpr call⟩, rfl⟩
  have spelled : meeting.Spelled WellFormed := by
    refine .obj ?_ ?_
    · exact List.forall_mem_cons.mpr ⟨first, List.forall_mem_singleton.mpr second⟩
    · exact List.forall_mem_cons.mpr ⟨.bool true, List.forall_mem_singleton.mpr (.str third)⟩
  have whole : meeting.Whole :=
    .obj (List.forall_mem_cons.mpr ⟨.bool true, List.forall_mem_singleton.mpr (.str _)⟩)
  have agree := replaceVariables_agree tame (by decide) spelled whole (by rfl)
  have result : (meeting.respell (filled [("a", .str "k")])).collapsed =
      .obj [("k", .str "xk")] := by rfl
  rw [result] at agree
  exact agree.2

end StructuredLog.Config
