import StructuredLog.Proofs.Json.Spelling
import StructuredLog.Proofs.Text.Lines

/-!
The indented text of a document, line by line. A container that holds anything has its brackets on
lines of their own, and what it holds between them, set in by two blanks. The layout alone breaks
the lines, so that no line is empty and none has a control character in it.
-/

namespace StructuredLog.Json

def setIn (line : List Char) : List Char := ' ' :: ' ' :: line

def headed (head : List Char) : List (List Char) → List (List Char)
  | [] => []
  | line :: rest => (head ++ line) :: rest

def comma : List (List Char) → List (List Char)
  | [] => []
  | [line] => [line ++ [',']]
  | line :: rest => line :: comma rest

mutual

def Value.lines : Value → List (List Char)
  | .null => [['n', 'u', 'l', 'l']]
  | .bool true => [['t', 'r', 'u', 'e']]
  | .bool false => [['f', 'a', 'l', 's', 'e']]
  | .num n => [n.text]
  | .str s => [stringText s]
  | .arr [] => [['[', ']']]
  | .arr items => ['['] :: (itemLines items).map setIn ++ [[']']]
  | .obj [] => [['{', '}']]
  | .obj members => ['{'] :: (memberLines members).map setIn ++ [['}']]

def itemLines : List Value → List (List Char)
  | [] => []
  | v :: rest => (if rest.isEmpty then v.lines else comma v.lines) ++ itemLines rest

/-- The lines of members. A key stands before the first line of its value. -/
def memberLines : List (String × Value) → List (List Char)
  | [] => []
  | (key, v) :: rest =>
      let own := headed (stringText key ++ [':', ' ']) v.lines
      (if rest.isEmpty then own else comma own) ++ memberLines rest

end

def following (level : Nat) (lines : List (List Char)) : List Char :=
  lines.flatMap fun line => (Style.indented level).gap ++ line

section Following

variable {level : Nat} {line : List Char} {lines : List (List Char)}

theorem following_cons : following level (line :: lines) =
    (Style.indented level).gap ++ (line ++ following level lines) := by
  rw [following, List.flatMap_cons, List.append_assoc]
  rfl

theorem following_append (first second : List (List Char)) :
    following level (first ++ second) = following level first ++ following level second :=
  List.flatMap_append

theorem following_setIn (lines : List (List Char)) :
    following level (lines.map setIn) = following (level + 1) lines := by
  have blanks : List.replicate (2 * (level + 1)) ' ' =
      List.replicate (2 * level) ' ' ++ [' ', ' '] :=
    List.replicate_add (2 * level) 2 ' '
  simp only [following, List.flatMap_map, Style.gap, setIn, blanks, List.cons_append,
    List.append_assoc, List.nil_append]

theorem following_comma (nonempty : lines ≠ []) :
    following level (comma lines) = following level lines ++ [','] := by
  induction lines with
  | nil => exact absurd rfl nonempty
  | cons line rest ih =>
    cases rest with
    | nil =>
      rw [comma, following_cons, following_cons]
      simp only [following, List.flatMap_nil, List.append_nil, List.append_assoc]
    | cons next more =>
      rw [comma, following_cons, following_cons, ih (List.cons_ne_nil _ _)]
      · simp only [List.append_assoc]
      · simp

theorem following_eq (lines : List (List Char)) (nonempty : lines ≠ []) :
    following 0 lines = '\n' :: ['\n'].intercalate lines := by
  induction lines with
  | nil => exact absurd rfl nonempty
  | cons line rest ih =>
    cases rest with
    | nil => simp [following, Style.gap]
    | cons next more =>
      rw [following_cons, ih (List.cons_ne_nil _ _), List.intercalate_cons_cons]
      simp [Style.gap]

end Following

def Value.Fills (v : Value) : Prop :=
  v.lines ≠ [] ∧
    ∀ level, (Style.indented level).gap ++ v.text (.indented level) = following level v.lines

theorem fills_line {v : Value} {line : List Char} (one : v.lines = [line])
    (text : ∀ style, v.text style = line) : v.Fills := by
  rw [Value.Fills, one]
  refine ⟨List.cons_ne_nil _ _, ?_⟩
  intro level
  rw [text, following_cons, following, List.flatMap_nil, List.append_nil]

theorem Value.Fills.headed {v : Value} (fills : v.Fills) (head : List Char) (level : Nat) :
    Json.headed head v.lines ≠ [] ∧
      (Style.indented level).gap ++ (head ++ v.text (.indented level)) =
        following level (Json.headed head v.lines) := by
  obtain ⟨nonempty, same⟩ := fills
  cases lines : v.lines with
  | nil => exact absurd lines nonempty
  | cons line rest =>
    have text := same level
    rw [lines, following_cons] at text
    rw [Json.headed, following_cons, List.append_cancel_left text, List.append_assoc]
    exact ⟨List.cons_ne_nil _ _, rfl⟩

theorem itemLines_following (level : Nat) {items : List Value} (each : ∀ v ∈ items, v.Fills) :
    itemsText (.indented level) items = following level (itemLines items) := by
  induction items with
  | nil => rfl
  | cons v others ih =>
    rw [List.forall_mem_cons] at each
    obtain ⟨⟨nonempty, fills⟩, each⟩ := each
    rw [itemsText, fills, itemLines, following_append, ih each]
    cases others with
    | nil => rfl
    | cons next more =>
      simp only [List.isEmpty_cons, Bool.false_eq_true, ↓reduceIte]
      rw [following_comma nonempty, List.append_assoc, List.singleton_append]

theorem memberLines_following (level : Nat) {members : List (String × Value)}
    (each : ∀ entry ∈ members, entry.2.Fills) :
    membersText (.indented level) members = following level (memberLines members) := by
  induction members with
  | nil => rfl
  | cons entry others ih =>
    rcases entry with ⟨key, v⟩
    rw [List.forall_mem_cons] at each
    obtain ⟨fills, each⟩ := each
    obtain ⟨nonempty, own⟩ := fills.headed (stringText key ++ [':', ' ']) level
    rw [membersText, Style.afterKey, List.append_assoc _ (stringText key), List.append_assoc _ _
      (v.text (.indented level)), own, memberLines, following_append, ih each]
    cases others with
    | nil => rfl
    | cons next more =>
      simp only [List.isEmpty_cons, Bool.false_eq_true, ↓reduceIte]
      rw [following_comma nonempty, List.append_assoc, List.singleton_append]

theorem following_enclosed (level : Nat) (left right : Char) (inner : List (List Char)) :
    following level ([left] :: inner.map setIn ++ [[right]]) =
      (Style.indented level).gap ++
        (left :: (following (level + 1) inner ++ ((Style.indented level).gap ++ [right]))) := by
  rw [following_append, following_cons, following_setIn, following_cons]
  simp only [following, List.flatMap_nil, List.append_nil, List.append_assoc, List.cons_append,
    List.nil_append]

theorem value_fills (v : Value) : v.Fills := by
  induction v using Value.structural with
  | null => exact fills_line rfl fun _ => rfl
  | bool b => cases b <;> exact fills_line rfl fun _ => rfl
  | num n => exact fills_line rfl fun _ => rfl
  | str s => exact fills_line rfl fun _ => rfl
  | arr items ih =>
    cases items with
    | nil => exact fills_line rfl fun _ => rfl
    | cons v rest =>
      refine ⟨List.cons_ne_nil _ _, ?_⟩
      intro level
      rw [text_items _ (List.cons_ne_nil v rest), Style.deeper, itemLines_following _ ih]
      exact (following_enclosed level '[' ']' _).symm
  | obj members ih =>
    cases members with
    | nil => exact fills_line rfl fun _ => rfl
    | cons entry rest =>
      refine ⟨List.cons_ne_nil _ _, ?_⟩
      intro level
      rw [text_members _ (List.cons_ne_nil entry rest), Style.deeper, memberLines_following _ ih]
      exact (following_enclosed level '{' '}' _).symm

theorem text_lines (v : Value) : v.text (.indented 0) = ['\n'].intercalate v.lines := by
  obtain ⟨nonempty, fills⟩ := value_fills v
  have text := fills 0
  rw [following_eq _ nonempty] at text
  exact List.cons.inj text |>.2

def Filled (line : List Char) : Prop := line ≠ [] ∧ ∀ c ∈ line, 0x20 ≤ c.toNat

section Filled

variable {line : List Char} {lines : List (List Char)}

theorem filled_of_all (nonempty : line ≠ [])
    (shown : line.all (fun c => 0x20 ≤ c.toNat) = true) : Filled line :=
  ⟨nonempty, fun c member => of_decide_eq_true (List.all_eq_true.mp shown c member)⟩

theorem Filled.append (filled : Filled line) {more : List Char}
    (shown : ∀ c ∈ more, 0x20 ≤ c.toNat) : Filled (line ++ more) :=
  ⟨List.append_ne_nil_of_left_ne_nil filled.1 _, List.forall_mem_append.mpr ⟨filled.2, shown⟩⟩

theorem Filled.after (filled : Filled line) {head : List Char}
    (shown : ∀ c ∈ head, 0x20 ≤ c.toNat) : Filled (head ++ line) :=
  ⟨List.append_ne_nil_of_right_ne_nil _ filled.1, List.forall_mem_append.mpr ⟨shown, filled.2⟩⟩

theorem filled_setIn (each : ∀ line ∈ lines, Filled line) :
    ∀ line ∈ lines.map setIn, Filled line := by
  have blanks : ∀ c ∈ [' ', ' '], 0x20 ≤ c.toNat := (filled_of_all (by simp) rfl).2
  intro line member
  obtain ⟨own, there, rfl⟩ := List.mem_map.mp member
  exact (each own there).after blanks

theorem filled_headed {head : List Char} (shown : ∀ c ∈ head, 0x20 ≤ c.toNat)
    (each : ∀ line ∈ lines, Filled line) : ∀ line ∈ headed head lines, Filled line := by
  cases lines with
  | nil => exact each
  | cons first rest =>
    rw [List.forall_mem_cons] at each
    exact List.forall_mem_cons.mpr ⟨each.1.after shown, each.2⟩

theorem filled_comma (each : ∀ line ∈ lines, Filled line) : ∀ line ∈ comma lines, Filled line := by
  have mark : ∀ c ∈ [','], 0x20 ≤ c.toNat := (filled_of_all (by simp) rfl).2
  induction lines with
  | nil => exact each
  | cons first rest ih =>
    rw [List.forall_mem_cons] at each
    cases rest with
    | nil => exact List.forall_mem_singleton.mpr (each.1.append mark)
    | cons next more => exact List.forall_mem_cons.mpr ⟨each.1, ih each.2⟩

theorem filled_enclosed {left right : Char} (opens : Filled [left]) (closes : Filled [right])
    (each : ∀ line ∈ lines, Filled line) :
    ∀ line ∈ [left] :: lines.map setIn ++ [[right]], Filled line :=
  List.forall_mem_append.mpr ⟨List.forall_mem_cons.mpr ⟨opens, filled_setIn each⟩,
    List.forall_mem_singleton.mpr closes⟩

end Filled

theorem itemLines_filled {items : List Value} (each : ∀ v ∈ items, ∀ line ∈ v.lines, Filled line) :
    ∀ line ∈ itemLines items, Filled line := by
  induction items with
  | nil => exact List.forall_mem_nil _
  | cons v rest ih =>
    rw [List.forall_mem_cons] at each
    refine List.forall_mem_append.mpr ⟨?_, ih each.2⟩
    split
    · exact each.1
    · exact filled_comma each.1

theorem memberLines_filled {members : List (String × Value)}
    (each : ∀ entry ∈ members, ∀ line ∈ entry.2.lines, Filled line) :
    ∀ line ∈ memberLines members, Filled line := by
  induction members with
  | nil => exact List.forall_mem_nil _
  | cons entry rest ih =>
    rcases entry with ⟨key, v⟩
    rw [List.forall_mem_cons] at each
    have head : ∀ c ∈ stringText key ++ [':', ' '], 0x20 ≤ c.toNat :=
      List.forall_mem_append.mpr ⟨stringText_shown key, (filled_of_all (by simp) rfl).2⟩
    have own := filled_headed head each.1
    refine List.forall_mem_append.mpr ⟨?_, ih each.2⟩
    split
    · exact own
    · exact filled_comma own

theorem lines_filled (v : Value) : ∀ line ∈ v.lines, Filled line := by
  have one {line : List Char} (filled : Filled line) : ∀ own ∈ [line], Filled own :=
    List.forall_mem_singleton.mpr filled
  induction v using Value.structural with
  | null => exact one (filled_of_all (List.cons_ne_nil _ _) rfl)
  | bool b => cases b <;> exact one (filled_of_all (List.cons_ne_nil _ _) rfl)
  | num n =>
    have spelled := n.text_number
    obtain ⟨c, more, same, -⟩ := spelled.head
    refine one ⟨?_, fun c member => numeral_shown (spelled.numeral c member)⟩
    rw [same]
    exact List.cons_ne_nil c more
  | str s => exact one ⟨List.cons_ne_nil _ _, stringText_shown s⟩
  | arr items ih =>
    cases items with
    | nil => exact one (filled_of_all (List.cons_ne_nil _ _) rfl)
    | cons v rest =>
      exact filled_enclosed (filled_of_all (List.cons_ne_nil _ _) rfl)
        (filled_of_all (List.cons_ne_nil _ _) rfl) (itemLines_filled ih)
  | obj members ih =>
    cases members with
    | nil => exact one (filled_of_all (List.cons_ne_nil _ _) rfl)
    | cons entry rest =>
      exact filled_enclosed (filled_of_all (List.cons_ne_nil _ _) rfl)
        (filled_of_all (List.cons_ne_nil _ _) rfl) (memberLines_filled ih)

theorem splitOn_text (v : Value) : Text.splitOn '\n' (v.text (.indented 0)) = v.lines := by
  have unbroken : ∀ line ∈ v.lines, '\n' ∉ line := by
    intro line member here
    exact absurd ((lines_filled v line member).2 _ here) (by decide)
  rw [text_lines, Text.splitOn_eq]
  exact List.splitOn_intercalate '\n' unbroken (value_fills v).1

structure Indented (v : Value) (text : List Char) : Prop where
  /-- It has the lines of the document. -/
  lines : text = ['\n'].intercalate v.lines
  /-- It is this document, with every number in it. -/
  document : ∃ tree, Document tree text ∧ tree.Stands v
  /-- The reader takes it back, if all its numbers are whole. -/
  back : v.Whole → v.Distinct → v.depth ≤ maxOpen → read text = .ok v

theorem text_indented (v : Value) : Indented v (v.text (.indented 0)) where
  lines := text_lines v
  document := ⟨v.tree, text_document v _, tree_stands v⟩
  back whole distinct shallow := by rw [read_text whole shallow, collapsed_same distinct]

end StructuredLog.Json
