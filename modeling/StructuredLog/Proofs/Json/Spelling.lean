import StructuredLog.Proofs.Binary64.Shortest
import StructuredLog.Proofs.Json.ReadBack

/-!
The text of a document in the grammar. However it is laid out, the text is the document and nothing
else: the same members in the same order, and every number spelled so that it is read as the number.
-/

namespace StructuredLog.Json

mutual

def Value.tree : Value → Tree
  | .null => .null
  | .bool b => .bool b
  | .num n => .number n.text
  | .str s => .string s
  | .arr items => .array (itemTrees items)
  | .obj members => .object (memberTrees members)

def itemTrees : List Value → List Tree
  | [] => []
  | v :: rest => v.tree :: itemTrees rest

def memberTrees : List (String × Value) → List (String × Tree)
  | [] => []
  | (key, v) :: rest => (key, v.tree) :: memberTrees rest

end

section Grammar

variable {rest : List Char}

/-- However it is laid out, the text of a document is read as the document. -/
def Value.Spells (v : Value) : Prop :=
  ∀ (style : Style) {rest : List Char}, EndsNumber rest →
    Reads (.value v.tree) (v.text style ++ rest) rest

theorem skip_gap (style : Style) {c : Char} (solid : isSpace c = false) (rest : List Char) :
    skip (style.gap ++ c :: rest) = c :: rest := by
  rw [skip_append (gap_blank style), skip, List.dropWhile_cons_of_neg (by rw [solid]; decide)]

/-- A value is found behind the blanks that its layout puts before it. -/
theorem Reads.behind {v : Tree} {blanks text : List Char} (value : Reads (.value v) text rest)
    (only : ∀ c ∈ blanks, isSpace c = true) :
    Reads (.value v) (skip (blanks ++ text)) rest := by
  rw [skip_append only, value.skip_value]
  exact value

theorem items_read (style : Style) {items : List Value} (each : ∀ v ∈ items, v.Spells)
    (nonempty : items ≠ []) :
    Reads (.items (itemTrees items))
      (itemsText style.deeper items ++ (style.gap ++ ']' :: rest)) rest := by
  induction items with
  | nil => exact absurd rfl nonempty
  | cons v others ih =>
    rw [List.forall_mem_cons] at each
    rw [itemTrees, itemsText, List.append_assoc, List.append_assoc]
    cases others with
    | nil =>
      rw [List.isEmpty_nil, if_pos rfl, List.nil_append]
      have ends : EndsNumber (style.gap ++ ']' :: rest) := endsNumber_gap style rfl rest
      have item := each.1 style.deeper ends
      exact .lastItem (item.behind (gap_blank _)) (skip_gap style rfl rest)
    | cons next more =>
      rw [List.isEmpty_cons, if_neg Bool.false_ne_true, List.cons_append]
      have ends : ∀ text, EndsNumber (',' :: text) := endsNumber_cons rfl
      exact .nextItem ((each.1 _ (ends _)).behind (gap_blank _)) rfl
        (ih each.2 (List.cons_ne_nil _ _))

theorem member_read (style : Style) (key : String) {v : Value} (spells : v.Spells)
    {blanks : List Char} (only : ∀ c ∈ blanks, isSpace c = true) (ends : EndsNumber rest) :
    Reads (.member key v.tree)
      (blanks ++ (stringText key ++ (style.afterKey ++ (v.text style ++ rest)))) rest := by
  obtain ⟨after, colon, blank⟩ := afterKey_colon style
  obtain ⟨inside, same, chars⟩ :=
    stringText_reads key (style.afterKey ++ (v.text style ++ rest))
  have quote : skip (blanks ++ '"' :: inside) = '"' :: inside := by
    rw [skip_append only]
    rfl
  have held : skip (style.afterKey ++ (v.text style ++ rest)) =
      ':' :: (after ++ (v.text style ++ rest)) := by
    rw [colon]
    rfl
  have member := Reads.member quote chars held ((spells style ends).behind blank)
  rw [String.ofList_toList] at member
  rw [same]
  exact member

theorem members_read (style : Style) {members : List (String × Value)}
    (each : ∀ entry ∈ members, entry.2.Spells) (nonempty : members ≠ []) :
    Reads (.members (memberTrees members))
      (membersText style.deeper members ++ (style.gap ++ '}' :: rest)) rest := by
  induction members with
  | nil => exact absurd rfl nonempty
  | cons entry others ih =>
    rcases entry with ⟨key, v⟩
    rw [List.forall_mem_cons] at each
    rw [memberTrees, membersText, List.append_assoc, List.append_assoc, List.append_assoc,
      List.append_assoc]
    cases others with
    | nil =>
      rw [List.isEmpty_nil, if_pos rfl, List.nil_append]
      have ends : EndsNumber (style.gap ++ '}' :: rest) := endsNumber_gap style rfl rest
      exact .lastMember (member_read _ key each.1 (gap_blank _) ends) (skip_gap style rfl rest)
    | cons next more =>
      rw [List.isEmpty_cons, if_neg Bool.false_ne_true, List.cons_append]
      have ends : ∀ text, EndsNumber (',' :: text) := endsNumber_cons rfl
      exact .nextMember (member_read _ key each.1 (gap_blank _) (ends _)) rfl
        (ih each.2 (List.cons_ne_nil _ _))

theorem Number.text_number (n : Number) : IsNumber n.text := by
  cases n with
  | integer n => exact intText_number n.val
  | real x =>
    exact (Binary64.signedText_spells realLayout Binary64.shortest x.val
      Binary64.shortest_pos).spelled

theorem text_spells (v : Value) : v.Spells := by
  induction v using Value.structural with
  | null => exact fun _ _ _ => .wordNull _
  | bool b =>
    intro style rest _
    cases b with
    | true => exact .wordTrue rest
    | false => exact .wordFalse rest
  | num n => exact fun _ _ ends => .number rfl n.text_number ends
  | str s =>
    intro style rest _
    obtain ⟨inside, same, chars⟩ := stringText_reads s rest
    have string := Reads.string chars
    rw [String.ofList_toList] at string
    rw [Value.text, same]
    exact string
  | arr items ih =>
    intro style rest _
    by_cases empty : items = []
    · subst empty
      exact .noItems rfl
    · rw [text_items style empty, List.cons_append, List.append_assoc, List.append_assoc]
      exact .array (items_read style ih empty)
  | obj members ih =>
    intro style rest _
    by_cases empty : members = []
    · subst empty
      exact .noMembers rfl
    · rw [text_members style empty, List.cons_append, List.append_assoc, List.append_assoc]
      exact .object (members_read style ih empty)

/-- Digits that are read as a number: a whole one has nothing but digits behind its sign, a real one
has a fraction or an exponent. -/
inductive Number.SpelledBy : Number → List Char → Prop where
  | integer {n : Integer} {digits : List Char}
      (reads : Binary64.wholeNumber? digits = some n.val) : SpelledBy (.integer n) digits
  | real {x : Real} {digits : List Char} (parts : '.' ∈ digits ∨ 'e' ∈ digits ∨ 'E' ∈ digits)
      (reads : Binary64.ofLiteral? digits = some x.val) : SpelledBy (.real x) digits

/-- What the grammar takes is a document, whatever spelling its numbers have. -/
inductive Tree.Stands : Tree → Value → Prop where
  | null : Stands .null .null
  | bool (b : Bool) : Stands (.bool b) (.bool b)
  | number {n : Number} {digits : List Char} (spelled : n.SpelledBy digits) :
      Stands (.number digits) (.num n)
  | string (s : String) : Stands (.string s) (.str s)
  | array {trees : List Tree} {items : List Value} (each : List.Forall₂ Stands trees items) :
      Stands (.array trees) (.arr items)
  | object {trees : List (String × Tree)} {members : List (String × Value)}
      (keys : trees.map Prod.fst = members.map Prod.fst)
      (each : List.Forall₂ Stands (trees.map Prod.snd) (members.map Prod.snd)) :
      Stands (.object trees) (.obj members)

theorem Number.text_spelled (n : Number) : n.SpelledBy n.text := by
  cases n with
  | integer n => exact .integer (intText_value n.val)
  | real x =>
    have spells := Binary64.signedText_spells realLayout Binary64.shortest x.val
      Binary64.shortest_pos
    exact .real spells.real (Binary64.ofLiteral?_signedText realLayout x.finite)

theorem itemTrees_stand {items : List Value} (each : ∀ v ∈ items, v.tree.Stands v) :
    List.Forall₂ Tree.Stands (itemTrees items) items := by
  induction items with
  | nil => exact .nil
  | cons v rest ih =>
    rw [List.forall_mem_cons] at each
    exact .cons each.1 (ih each.2)

theorem memberTrees_stand {members : List (String × Value)}
    (each : ∀ entry ∈ members, entry.2.tree.Stands entry.2) :
    (memberTrees members).map Prod.fst = members.map Prod.fst ∧
      List.Forall₂ Tree.Stands ((memberTrees members).map Prod.snd) (members.map Prod.snd) := by
  induction members with
  | nil => exact ⟨rfl, .nil⟩
  | cons entry rest ih =>
    rw [List.forall_mem_cons] at each
    obtain ⟨keys, others⟩ := ih each.2
    exact ⟨congrArg (entry.1 :: ·) keys, .cons each.1 others⟩

theorem tree_stands (v : Value) : v.tree.Stands v := by
  induction v using Value.structural with
  | null => exact .null
  | bool b => exact .bool b
  | num n => exact .number n.text_spelled
  | str s => exact .string s
  | arr items ih => exact .array (itemTrees_stand ih)
  | obj members ih =>
    obtain ⟨keys, each⟩ := memberTrees_stand ih
    exact .object keys each

theorem text_document (v : Value) (style : Style) : Document v.tree (v.text style) := by
  have read : Reads (.value v.tree) (v.text style ++ []) [] :=
    text_spells v style fun c here => by cases here
  rw [List.append_nil] at read
  refine ⟨[], ?_, rfl⟩
  rw [read.skip_value]
  exact read

end Grammar

end StructuredLog.Json
