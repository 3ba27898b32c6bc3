import Mathlib.Data.List.Forall2
import StructuredLog.Config.Source
import StructuredLog.Proofs.Text.Decoding

/-!
Texts without their comments. Every line is cut where its first comment begins and keeps its feed,
so that lines keep their numbers; and nothing is left in which a comment could begin. Bytes are
read so exactly when they are those of a text.
-/

namespace StructuredLog.Config

open Text (lines splitOn occurs before)

theorem commentMark_ne_nil : commentMark ≠ [] := by decide

theorem feed_not_in_mark : '\n' ∉ commentMark := by decide

inductive Uncommented (line : List Char) : List Char → Prop where
  | whole (unmarked : ¬commentMark <:+: line) : Uncommented line line
  | cut {kept rest : List Char} (split : line = kept ++ (commentMark ++ rest))
      (first : ∀ front behind, line = front ++ (commentMark ++ behind) →
        kept.length ≤ front.length) : Uncommented line kept

theorem stripComment_uncommented (line : List Char) : Uncommented line (stripComment line) := by
  by_cases marked : occurs commentMark line = true
  · obtain ⟨rest, split⟩ := Text.before_split marked
    refine .cut split ?_
    rintro front behind rfl
    exact Text.before_first commentMark_ne_nil
  · rw [stripComment, Text.before_same (Bool.eq_false_iff.mpr marked)]
    exact .whole fun inside => marked (Text.occurs_iff.mpr inside)

theorem bareLine_last {line : List Char} (last : '\n' ∉ line) :
    bareLine line = stripComment line := by
  refine if_neg fun ⟨_, feed⟩ => last ?_
  exact List.mem_of_getLast? feed

theorem bareLine_next (line : List Char) :
    bareLine (line ++ ['\n']) = stripComment line ++ ['\n'] := by
  unfold bareLine stripComment
  by_cases marked : occurs commentMark line = true
  · have cut := Text.before_break feed_not_in_mark marked commentMark_ne_nil []
    have short : (before commentMark line).length ≠ (line ++ ['\n']).length := by
      have front := (Text.before_prefix commentMark line).length_le
      rw [List.length_append, List.length_singleton]
      omega
    rw [cut, if_pos ⟨short, List.getLast?_concat⟩]
  · have unmarked := Bool.eq_false_iff.mpr marked
    have still : occurs commentMark (line ++ ['\n']) = false := by
      rw [Text.occurs_break commentMark_ne_nil feed_not_in_mark, unmarked]
      rfl
    rw [Text.before_same unmarked, Text.before_same still, if_neg fun differ => differ.1 rfl]

theorem stripComments_last {line : List Char} (last : '\n' ∉ line) :
    stripComments line = stripComment line := by
  cases line with
  | nil => rfl
  | cons c line =>
    rw [stripComments, Text.lines_last last (List.cons_ne_nil c line), List.flatMap_singleton,
      bareLine_last last]

theorem stripComments_next {line : List Char} (one : '\n' ∉ line) (rest : List Char) :
    stripComments (line ++ '\n' :: rest) = stripComment line ++ '\n' :: stripComments rest := by
  rw [stripComments, Text.lines_next one, List.flatMap_cons, bareLine_next, List.append_assoc]
  rfl

theorem feed_not_in_stripComment {line : List Char} (one : '\n' ∉ line) :
    '\n' ∉ stripComment line :=
  fun member => one ((Text.before_prefix commentMark line).subset member)

/-- What is left of a text has its lines, each without its comment. -/
theorem splitOn_stripComments (text : List Char) :
    splitOn '\n' (stripComments text) = (splitOn '\n' text).map stripComment := by
  induction text using Text.line_induction '\n' with
  | last line one =>
    rw [stripComments_last one, Text.splitOn_same (feed_not_in_stripComment one),
      Text.splitOn_same one, List.map_singleton]
  | next line rest one ih =>
    rw [stripComments_next one, Text.splitOn_next (feed_not_in_stripComment one), ih,
      Text.splitOn_next one, List.map_cons]

theorem occurs_stripComments (text : List Char) :
    occurs commentMark (stripComments text) = false := by
  have clear (line : List Char) : occurs commentMark (stripComment line) = false :=
    Text.occurs_before commentMark_ne_nil line
  induction text using Text.line_induction '\n' with
  | last line one => rw [stripComments_last one, clear]
  | next line rest one ih =>
    rw [stripComments_next one, Text.occurs_break commentMark_ne_nil feed_not_in_mark, clear, ih]
    rfl

theorem stripComments_same {text : List Char} (unmarked : occurs commentMark text = false) :
    stripComments text = text := by
  induction text using Text.line_induction '\n' with
  | last line one => rw [stripComments_last one, stripComment, Text.before_same unmarked]
  | next line rest one ih =>
    rw [Text.occurs_break commentMark_ne_nil feed_not_in_mark, Bool.or_eq_false_iff] at unmarked
    rw [stripComments_next one, ih unmarked.2, stripComment, Text.before_same unmarked.1]

theorem stripComments_again (text : List Char) :
    stripComments (stripComments text) = stripComments text :=
  stripComments_same (occurs_stripComments text)

theorem stripComments_eq_self {text : List Char} :
    stripComments text = text ↔ occurs commentMark text = false :=
  ⟨fun same => same ▸ occurs_stripComments text, stripComments_same⟩

section Reading

open Text (Bytes encode)

theorem readStripped_encode (text : List Char) :
    readStripped (encode text) = .ok (stripComments text) := by
  rw [readStripped, Text.lines_encode, Text.mapM_decode?.mpr rfl]
  rfl

theorem readStripped_fault {data : Bytes} (fault : ∀ text, data ≠ encode text) :
    readStripped data = .error (.system .notUtf8) := by
  rw [readStripped]
  cases read : (lines 10 data).mapM Text.decode? with
  | none => rfl
  | some texts =>
    refine absurd ?_ (fault texts.flatten)
    rw [Text.encode_flatten, ← Text.mapM_decode?.mp read, Text.lines_flatten]

theorem load_eq_loadBytes (text source : String) :
    load text source = loadBytes source (Text.bytes text) := by
  rw [loadBytes, Text.bytes, readStripped_encode]
  rfl

/-- What is read of a text: every line up to its first comment, under its own number, no mark of a
comment, and all of the text only if there was none. -/
structure Stripped (text bare : List Char) : Prop where
  feeds : bare.count '\n' = text.count '\n'
  lines : List.Forall₂ Uncommented (splitOn '\n' text) (splitOn '\n' bare)
  unmarked : ¬commentMark <:+: bare
  same : bare = text ↔ ¬commentMark <:+: text
  again : readStripped (encode bare) = .ok bare

theorem unmarked_iff {text : List Char} :
    occurs commentMark text = false ↔ ¬commentMark <:+: text := by
  rw [← Text.occurs_iff, Bool.not_eq_true]

theorem stripComments_stripped (text : List Char) : Stripped text (stripComments text) where
  feeds := by
    have pieces := congrArg List.length (splitOn_stripComments text)
    rw [List.length_map, Text.length_splitOn, Text.length_splitOn] at pieces
    exact Nat.add_right_cancel pieces
  lines := by
    rw [splitOn_stripComments, List.forall₂_map_right_iff, List.forall₂_same]
    exact fun line _ => stripComment_uncommented line
  unmarked := unmarked_iff.mp (occurs_stripComments text)
  same := stripComments_eq_self.trans unmarked_iff
  again := by rw [readStripped_encode, stripComments_again]

/-- Reading bytes without their comments: those of a text leave its lines, each cut where its first
comment begins, and all others are refused. -/
theorem readStripped_lines (data : Bytes) :
    (∃ text bare, data = encode text ∧ readStripped data = .ok bare ∧ Stripped text bare) ∨
      (∀ text, data ≠ encode text) ∧ readStripped data = .error (.system .notUtf8) := by
  by_cases written : ∃ text, data = encode text
  · obtain ⟨text, rfl⟩ := written
    exact .inl ⟨text, _, rfl, readStripped_encode text, stripComments_stripped text⟩
  · have fault := not_exists.mp written
    exact .inr ⟨fault, readStripped_fault fault⟩

/-- A line that is all comment stays as an empty one, and a mark that a line end divides is none. -/
example : stripComments ['#', '^', '^', 'a', '\n', '#', '^', '\n', '^'] =
    ['\n', '#', '^', '\n', '^'] := by decide

end Reading

end StructuredLog.Config
