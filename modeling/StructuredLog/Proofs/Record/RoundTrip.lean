import StructuredLog.Proofs.Json.Written
import StructuredLog.Record.Buffer

/-!
Records are read back as what was put into them. Whatever the keys and values are, the text is one
object with exactly these members, and nothing in it but its layout breaks a line.
-/

namespace StructuredLog.Record

open Json (Tree Reads Document EndsNumber skip)

inductive Scalar where
  | string (s : String)
  | null
  | integer (i : Int)
  | real (x : Binary64)

namespace Scalar

def text : Scalar → List Char
  | .string s => Json.stringText s
  | .null => ['n', 'u', 'l', 'l']
  | .integer i => Json.intText i
  | .real x => realText x

def tree : Scalar → Tree
  | .string s => .string s
  | .null => .null
  | .integer i => .number (Json.intText i)
  | .real x => if x.isFinite then .number (realText x) else .null

/-- What a value may be read as. A finite real number keeps its sign, and is otherwise worth its
significant digits; the text cannot be taken for a whole number. -/
def Shows : Scalar → Tree → Prop
  | .string s, v => v = .string s
  | .null, v => v = .null
  | .integer i, v => ∃ text, v = .number text ∧ Binary64.wholeNumber? text = some i
  | .real x, v =>
      if x.isFinite then
        ∃ text, v = .number text ∧
          Binary64.SpellsReal text x.isNegative (Binary64.rounded significantDigits x).value
      else v = .null

end Scalar

namespace Buffer

def appendScalar (b : Buffer) (key : String) : Scalar → Buffer
  | .string s => b.appendString key s
  | .null => b.appendNull key
  | .integer i => b.appendInteger key i
  | .real x => b.appendReal key x

def appendAll (b : Buffer) : List (String × Scalar) → Buffer
  | [] => b
  | (key, value) :: rest => (b.appendScalar key value).appendAll rest

/-- A buffer that was just begun, as a new one or again after an earlier use. -/
def begun (earlier : Option Buffer) (indented : Bool) : Buffer :=
  match earlier with
  | none => .fresh indented
  | some b => b.reset indented

end Buffer

theorem real_spells (x : Binary64) (finite : x.isFinite = true) :
    Binary64.SpellsReal (realText x) x.isNegative
      (Binary64.rounded significantDigits x).value := by
  rw [realText, if_pos finite]
  exact Binary64.rounded_spells realLayout (by decide) x

theorem Scalar.shows_tree (value : Scalar) : value.Shows value.tree := by
  cases value with
  | string s => rfl
  | null => rfl
  | integer i => exact ⟨_, rfl, Json.intText_value i⟩
  | real x =>
    by_cases finite : x.isFinite = true
    · simp only [Shows, tree, if_pos finite]
      exact ⟨_, rfl, real_spells x finite⟩
    · simp only [Shows, tree, if_neg finite]

theorem Scalar.reads (value : Scalar) {rest : List Char} (ends : EndsNumber rest) :
    Reads (.value value.tree) (value.text ++ rest) rest := by
  cases value with
  | string s =>
    obtain ⟨inside, same, chars⟩ := Json.stringText_reads s rest
    have read := Reads.string chars
    rw [String.ofList_toList] at read
    rw [text, same]
    exact read
  | null => exact .wordNull rest
  | integer i => exact .number rfl (Json.intText_number i) ends
  | real x =>
    by_cases finite : x.isFinite = true
    · rw [tree, if_pos finite]
      exact .number rfl (real_spells x finite).spelled ends
    · rw [tree, text, realText, if_neg finite, if_neg finite]
      exact .wordNull rest

def isControl (c : Char) : Bool := decide (c.toNat < 0x20)

theorem controls_none {text : List Char} (shown : ∀ c ∈ text, 0x20 ≤ c.toNat) :
    text.filter isControl = [] := by
  rw [List.filter_eq_nil_iff]
  intro c member
  have above := shown c member
  simp only [isControl, decide_eq_true_eq]
  omega

theorem Scalar.text_shown (value : Scalar) : ∀ c ∈ value.text, 0x20 ≤ c.toNat := by
  have numerals : ∀ {text}, Json.IsNumber text → ∀ c ∈ text, 0x20 ≤ c.toNat := by
    intro text spelled c member
    exact Json.numeral_shown (spelled.numeral c member)
  have null : ∀ c ∈ ['n', 'u', 'l', 'l'], 0x20 ≤ c.toNat := by
    intro c member
    simp only [List.mem_cons, List.not_mem_nil, or_false] at member
    rcases member with rfl | rfl | rfl | rfl <;> decide
  cases value with
  | string s => exact Json.stringText_shown s
  | null => exact null
  | integer i => exact numerals (Json.intText_number i)
  | real x =>
    by_cases finite : x.isFinite = true
    · exact numerals (real_spells x finite).spelled
    · rw [text, realText, if_neg finite]
      exact null

def memberText (entry : String × Scalar) : List Char :=
  Json.stringText entry.1 ++ [':', ' '] ++ entry.2.text

theorem memberText_controls (entry : String × Scalar) :
    (memberText entry).filter isControl = [] := by
  rw [memberText, List.filter_append, List.filter_append,
    controls_none (Json.stringText_shown entry.1), controls_none entry.2.text_shown]
  decide

/-- The members after the first, each with what separates it from the one before. -/
def othersText (indented : Bool) (entries : List (String × Scalar)) : List Char :=
  entries.flatMap fun entry =>
    Buffer.separator indented ++ (Buffer.indent indented ++ memberText entry)

namespace Buffer

theorem appendScalar_eq (b : Buffer) (key : String) (value : Scalar) :
    b.appendScalar key value = b.append key value.text := by
  cases value <;> rfl

theorem appendAll_items (b : Buffer) (entries : List (String × Scalar)) :
    (b.appendAll entries).items = b.items + entries.length := by
  induction entries generalizing b with
  | nil => rfl
  | cons entry rest ih =>
    rw [appendAll, ih, appendScalar_eq, List.length_cons]
    simp only [append]
    omega

theorem appendAll_indented (b : Buffer) (entries : List (String × Scalar)) :
    (b.appendAll entries).indented = b.indented := by
  induction entries generalizing b with
  | nil => rfl
  | cons entry rest ih =>
    rw [appendAll, ih, appendScalar_eq]
    rfl

theorem appendAll_text (b : Buffer) (used : b.items ≠ 0) (entries : List (String × Scalar)) :
    (b.appendAll entries).text = b.text ++ othersText b.indented entries := by
  induction entries generalizing b with
  | nil => exact (List.append_nil _).symm
  | cons entry rest ih =>
    rw [appendAll, appendScalar_eq, ih _ (Nat.succ_ne_zero _)]
    simp only [append, if_neg used, othersText, memberText, List.flatMap_cons, List.append_assoc]

theorem fresh_text (indented : Bool) (entry : String × Scalar) (rest : List (String × Scalar)) :
    ((fresh indented).appendAll (entry :: rest)).text =
      (fresh indented).text ++
        (indent indented ++ (memberText entry ++ othersText indented rest)) := by
  rw [appendAll, appendScalar_eq, appendAll_text _ (Nat.succ_ne_zero _)]
  simp only [append, fresh, ↓reduceIte, memberText, List.append_assoc, List.nil_append]

end Buffer

def closing (indented : Bool) : List Char := if indented then ['\n', '}'] else [' ', '}']

theorem finish_text (b : Buffer) : b.finish.text = b.text ++ closing b.indented := rfl

theorem skip_closing (indented : Bool) : skip (closing indented) = ['}'] := by
  cases indented <;> rfl

theorem ends_others (indented : Bool) (entries : List (String × Scalar)) :
    EndsNumber (othersText indented entries ++ closing indented) := by
  intro c head
  cases entries with
  | nil => cases indented <;> cases head <;> decide
  | cons entry rest => cases indented <;> cases head <;> decide

theorem member_reads (entry : String × Scalar) {blanks rest : List Char}
    (only : ∀ c ∈ blanks, Json.isSpace c = true) (ends : EndsNumber rest) :
    Reads (.member entry.1 entry.2.tree) (blanks ++ (memberText entry ++ rest)) rest := by
  have value := entry.2.reads ends
  obtain ⟨inside, same, chars⟩ :=
    Json.stringText_reads entry.1 (':' :: ' ' :: (entry.2.text ++ rest))
  have whole : memberText entry ++ rest = '"' :: inside := by
    rw [← same, memberText]
    simp only [List.append_assoc, List.cons_append, List.nil_append]
  have quote : skip (blanks ++ (memberText entry ++ rest)) = '"' :: inside := by
    rw [Json.skip_append only, whole]
    rfl
  have held : skip (' ' :: (entry.2.text ++ rest)) = entry.2.text ++ rest := value.skip_value
  rw [← held] at value
  have read := Reads.member quote chars rfl value
  rw [String.ofList_toList] at read
  exact read

def treesOf (entries : List (String × Scalar)) : List (String × Tree) :=
  entries.map fun entry => (entry.1, entry.2.tree)

def MemberShows (entry : String × Scalar) (member : String × Tree) : Prop :=
  entry.1 = member.1 ∧ entry.2.Shows member.2

theorem treesOf_shows (entries : List (String × Scalar)) :
    List.Forall₂ MemberShows entries (treesOf entries) := by
  induction entries with
  | nil => exact .nil
  | cons entry rest ih => exact .cons ⟨rfl, entry.2.shows_tree⟩ ih

theorem members_read (indented : Bool) (entry : String × Scalar)
    (rest : List (String × Scalar)) (blanks : List Char)
    (only : ∀ c ∈ blanks, Json.isSpace c = true) :
    Reads (.members (treesOf (entry :: rest)))
      (blanks ++ (memberText entry ++ (othersText indented rest ++ closing indented))) [] := by
  -- A number ends where its member ends: at a separator or at the closing of the record.
  induction rest generalizing entry blanks with
  | nil =>
    have member := member_reads entry only (ends_others indented [])
    exact .lastMember member (skip_closing indented)
  | cons next rest ih =>
    have member := member_reads entry only (ends_others indented (next :: rest))
    have layout : ∃ blanks, (∀ c ∈ blanks, Json.isSpace c = true) ∧
        Buffer.separator indented ++ Buffer.indent indented = ',' :: blanks := by
      cases indented
      · exact ⟨[' '], List.all_eq_true.mp rfl, rfl⟩
      · exact ⟨['\n', ' ', ' ', ' ', ' '], List.all_eq_true.mp rfl, rfl⟩
    obtain ⟨blanks, blank, separates⟩ := layout
    refine .nextMember member ?_ (ih next blanks blank)
    have comma : othersText indented (next :: rest) ++ closing indented =
        ',' :: (blanks ++ (memberText next ++ (othersText indented rest ++ closing indented))) := by
      rw [← List.cons_append, ← separates]
      simp only [othersText, List.flatMap_cons, List.append_assoc]
    rw [comma]
    rfl

theorem record_reads (indented : Bool) (entries : List (String × Scalar)) :
    Document (.object (treesOf entries))
      ((Buffer.fresh indented).appendAll entries).finish.text := by
  have read : Reads (.value (.object (treesOf entries)))
      ((Buffer.fresh indented).appendAll entries).finish.text [] := by
    rw [finish_text, Buffer.appendAll_indented]
    cases entries with
    | nil => cases indented <;> exact .noMembers rfl
    | cons entry rest =>
      have layout : ∃ blanks, (∀ c ∈ blanks, Json.isSpace c = true) ∧
          (Buffer.fresh indented).text ++ Buffer.indent indented = '{' :: blanks := by
        cases indented
        · exact ⟨[], List.all_eq_true.mp rfl, rfl⟩
        · exact ⟨['\n', ' ', ' ', ' ', ' '], List.all_eq_true.mp rfl, rfl⟩
      obtain ⟨blanks, blank, opens⟩ := layout
      have whole : ((Buffer.fresh indented).appendAll (entry :: rest)).text ++ closing indented =
          '{' :: (blanks ++
            (memberText entry ++ (othersText indented rest ++ closing indented))) := by
        rw [Buffer.fresh_text, ← List.cons_append, ← opens]
        simp only [List.append_assoc]
      have written : (Buffer.fresh indented).indented = indented := rfl
      rw [written, whole]
      exact .object (members_read indented entry rest blanks blank)
  refine ⟨[], ?_, rfl⟩
  rw [read.skip_value]
  exact read

theorem othersText_controls (indented : Bool) (entries : List (String × Scalar)) :
    (othersText indented entries).filter isControl =
      if indented then List.replicate entries.length '\n' else [] := by
  induction entries with
  | nil => cases indented <;> rfl
  | cons entry rest ih =>
    rw [othersText] at ih
    rw [othersText, List.flatMap_cons, List.filter_append, List.filter_append, List.filter_append,
      memberText_controls, ih]
    cases indented <;> rfl

theorem record_controls (indented : Bool) (entries : List (String × Scalar)) :
    ((Buffer.fresh indented).appendAll entries).finish.text.filter isControl =
      if indented then List.replicate (max entries.length 1 + 1) '\n' else [] := by
  rw [finish_text, Buffer.appendAll_indented, List.filter_append]
  cases entries with
  | nil => cases indented <;> rfl
  | cons entry rest =>
    have count : max (rest.length + 1) 1 + 1 = rest.length + 1 + 1 := by omega
    rw [Buffer.fresh_text, List.filter_append, List.filter_append, List.filter_append,
      memberText_controls, othersText_controls, List.length_cons, count]
    cases indented
    · rfl
    · simp only [↓reduceIte, List.nil_append, List.append_assoc]
      rw [List.replicate_succ, List.replicate_succ']
      rfl

/-- Whatever was in the buffer before and whatever is put into it, the finished text is one object
with exactly the members that were put in, in their order, and with no others. On one line it has no
control character at all; on several lines it has only the line breaks of the layout. -/
theorem record_round_trip (earlier : Option Buffer) (indented : Bool)
    (entries : List (String × Scalar)) :
    let built := (Buffer.begun earlier indented).appendAll entries
    built.items = entries.length ∧ built.finish.items = entries.length ∧
      (∃ members, List.Forall₂ MemberShows entries members ∧
        ∀ v, Document v built.finish.text ↔ v = .object members) ∧
      built.finish.text.filter isControl =
        if indented then List.replicate (max entries.length 1 + 1) '\n' else [] := by
  intro built
  have begins : Buffer.begun earlier indented = .fresh indented := by
    cases earlier <;> rfl
  have same : built = (Buffer.fresh indented).appendAll entries := by
    rw [← begins]
  have items : built.items = entries.length := by
    rw [same, Buffer.appendAll_items]
    exact Nat.zero_add _
  refine ⟨items, items, ⟨treesOf entries, treesOf_shows entries, ?_⟩, ?_⟩
  · intro v
    rw [same]
    constructor
    · intro other
      exact other.unique (record_reads indented entries)
    · rintro rfl
      exact record_reads indented entries
  · rw [same]
    exact record_controls indented entries

example :
    (((Buffer.fresh false).appendString "k" "\"\n").appendInteger "k" (-12)).finish.text =
      "\x7b\"k\": \"\\\"\\n\", \"k\": -12 \x7d".toList := by
  decide

end StructuredLog.Record
