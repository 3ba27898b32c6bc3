import Mathlib.Data.List.Forall2
import StructuredLog.Dump
import StructuredLog.Proofs.Text.Decoding
import StructuredLog.Proofs.Text.Digits
import StructuredLog.Proofs.Text.Hex

/-!
Dumps can be read back. Every line has its offset, sixteen cells and the bytes that can be shown, so
that the bytes stand in the cells of all lines in their order, however wide the offsets grow.
-/

namespace StructuredLog.Dump

open Text (Bytes SpellsHex hexValue? smallHex capitalHex)

/-- A cell of a line: two digits for a byte, and blanks where there is none. -/
inductive IsCell : Option UInt8 → List Char → Prop where
  | byte {b : UInt8} {high low : Char} (spells : SpellsHex capitalHex 2 b.toNat [high, low]) :
      IsCell (some b) [high, low, ' ']
  | none : IsCell none [' ', ' ', ' ']

/-- A byte is shown by itself if it is a blank or printable ASCII. -/
def ShownAs (b : UInt8) (c : Char) : Prop :=
  if 0x20 ≤ b.toNat ∧ b.toNat ≤ 0x7E then c.toNat = b.toNat else c = '.'

/-- A line for some bytes from an offset on: the offset, sixteen cells, and how the bytes are
shown. -/
structure IsLine (offset : Nat) (data : Bytes) (column : List Char) (cells : List (List Char))
    (shown : List Char) : Prop where
  place : SpellsHex capitalHex 4 offset column
  count : cells.length = 16
  each : ∀ (i : Nat) (cell : List Char), cells[i]? = some cell → IsCell data[i]? cell
  width : cells.flatten.length = 48
  shows : List.Forall₂ ShownAs data shown

def cellsOf (line : List Char) : List Char :=
  ((line.dropWhile (· != ':')).drop 2).take 48

def ofLine? (line : List Char) : Option Bytes := ofHex? ((cellsOf line).filter (· != ' '))

def ofLines? (lines : List (List Char)) : Option Bytes :=
  (lines.mapM ofLine?).map List.flatten

theorem upperDigit_reads (n : Nat) (small : n < 16) :
    upperDigit n ∈ capitalHex ∧ hexValue? (upperDigit n) = some n := by
  obtain ⟨among, value, -⟩ := Text.digitChar_small n small
  obtain ⟨capital, same, -⟩ := Text.toUpper_small _ among
  exact ⟨capital, same.trans value⟩

theorem byte_halves (b : UInt8) : b.toNat / 16 < 16 ∧ b.toNat % 16 < 16 ∧
    16 * (b.toNat / 16) + b.toNat % 16 = b.toNat := by
  have bound := b.toNat_lt
  omega

theorem ofHex?_pairs {digit : Nat → Char} (reads : ∀ n < 16, hexValue? (digit n) = some n)
    (data : Bytes) :
    ofHex? (data.flatMap fun b => [digit (b.toNat / 16), digit (b.toNat % 16)]) = some data := by
  induction data with
  | nil => rfl
  | cons b rest ih =>
    obtain ⟨high, low, whole⟩ := byte_halves b
    rw [List.flatMap_cons, List.cons_append, List.cons_append, List.nil_append, ofHex?,
      reads _ high, reads _ low, ih]
    simp only [whole, UInt8.ofNat_toNat]

theorem cell_isCell (b : UInt8) : IsCell (some b) (cell b) := by
  obtain ⟨high, low, whole⟩ := byte_halves b
  obtain ⟨first, firstValue⟩ := upperDigit_reads _ high
  obtain ⟨second, secondValue⟩ := upperDigit_reads _ low
  refine .byte ⟨?_, ?_, Nat.le_refl 2, fun more => absurd more (Nat.lt_irrefl 2)⟩
  · exact List.forall_mem_cons.mpr ⟨first, List.forall_mem_singleton.mpr second⟩
  · simp only [Text.hexNumber, List.foldl_cons, List.foldl_nil, firstValue, secondValue,
      Option.getD_some]
    omega

theorem shownByte_shownAs (b : UInt8) : ShownAs b (shownByte b) := by
  have codes : 0x20 ≤ b ∧ b ≤ 0x7E ↔ 0x20 ≤ b.toNat ∧ b.toNat ≤ 0x7E := Iff.rfl
  unfold ShownAs shownByte
  split
  · next printable =>
    rw [if_pos (codes.mpr printable)]
    exact Text.toNat_ofNat (.inl (by omega))
  · next other => exact if_neg (mt codes.mp other)

def cells (data : Bytes) : List (List Char) :=
  data.map cell ++ List.replicate (bytesPerLine - data.length) noCell

def column (offset : Nat) : List Char :=
  Decimal.padLeft '0' 4 ((Text.hexDigits offset).map Char.toUpper)

theorem line_eq (offset : Nat) (data : Bytes) : line offset data =
    column offset ++ [':', ' '] ++ (cells data).flatten ++ data.map shownByte := by
  rw [cells, List.flatten_append, ← List.flatMap_def, line, column]
  simp only [List.append_assoc]

theorem column_spells (offset : Nat) : SpellsHex capitalHex 4 offset (column offset) :=
  (Text.hexDigits_spells offset).capitals.padded (by decide) (by decide)

theorem cells_length {data : Bytes} (fits : data.length ≤ 16) : (cells data).length = 16 := by
  rw [cells, List.length_append, List.length_map, List.length_replicate, bytesPerLine]
  omega

theorem cells_isCell (data : Bytes) (i : Nat) (c : List Char) (found : (cells data)[i]? = some c) :
    IsCell data[i]? c := by
  have size : (data.map cell).length = data.length := List.length_map _
  by_cases inside : i < data.length
  · rw [cells, List.getElem?_append_left (size ▸ inside), List.getElem?_map,
      List.getElem?_eq_getElem inside] at found
    cases found
    rw [List.getElem?_eq_getElem inside]
    exact cell_isCell _
  · rw [cells, List.getElem?_append_right (by omega)] at found
    rw [List.getElem?_eq_none (by omega), List.eq_of_mem_replicate (List.mem_of_getElem? found)]
    exact .none

theorem cells_width {data : Bytes} (fits : data.length ≤ 16) :
    (cells data).flatten.length = 48 := by
  have three : ∀ c ∈ cells data, c.length = 3 := by
    intro c member
    rcases List.mem_append.mp member with own | missing
    · obtain ⟨b, -, rfl⟩ := List.mem_map.mp own
      rfl
    · rw [List.eq_of_mem_replicate missing]
      rfl
  rw [List.length_flatten, List.map_congr_left three, List.map_const', List.sum_replicate_nat,
    cells_length fits]

theorem line_isLine (offset : Nat) {data : Bytes} (fits : data.length ≤ 16) :
    IsLine offset data (column offset) (cells data) (data.map shownByte) := by
  refine ⟨column_spells offset, cells_length fits, cells_isCell data, cells_width fits, ?_⟩
  rw [List.forall₂_map_right_iff, List.forall₂_same]
  exact fun b _ => shownByte_shownAs b

theorem cellsOf_line (offset : Nat) {data : Bytes} (fits : data.length ≤ 16) :
    cellsOf (line offset data) = (cells data).flatten := by
  have digits : ':' ∉ column offset := by
    intro member
    exact absurd ((column_spells offset).only _ member) (by decide)
  rw [cellsOf, line_eq]
  simp only [List.append_assoc, List.cons_append, List.nil_append]
  rw [(Text.run_before digits _).2]
  exact List.take_left' (cells_width fits)

theorem cells_digits (data : Bytes) : (cells data).flatten.filter (· != ' ') =
    data.flatMap fun b => [upperDigit (b.toNat / 16), upperDigit (b.toNat % 16)] := by
  have shows : ∀ n < 16, (upperDigit n != ' ') = true := by
    intro n small
    rw [bne_iff_ne]
    intro blank
    exact absurd (blank ▸ (upperDigit_reads n small).1) (by decide)
  have blanks : ∀ count, (List.replicate count noCell).flatten.filter (· != ' ') = [] := by
    intro count
    induction count with
    | zero => rfl
    | succ count ih => exact ih
  rw [cells, List.flatten_append, List.filter_append, blanks, List.append_nil, ← List.flatMap_def]
  induction data with
  | nil => rfl
  | cons b rest ih =>
    obtain ⟨high, low, -⟩ := byte_halves b
    rw [List.flatMap_cons, List.flatMap_cons, List.filter_append, ih, cell]
    simp only [List.filter_cons, shows _ high, shows _ low, ↓reduceIte]
    rfl

theorem ofLine?_line (offset : Nat) {data : Bytes} (fits : data.length ≤ 16) :
    ofLine? (line offset data) = some data := by
  rw [ofLine?, cellsOf_line offset fits, cells_digits]
  exact ofHex?_pairs (fun n small => (upperDigit_reads n small).2) data

theorem linesFrom_eq {count : Nat} (offset : Nat) {data : Bytes} (enough : data.length ≤ count) :
    linesFrom count offset data = (List.range ((data.length + 15) / 16)).map fun i =>
      line (offset + 16 * i) ((data.drop (16 * i)).take 16) := by
  induction count generalizing offset data with
  | zero =>
    rw [List.eq_nil_of_length_eq_zero (Nat.le_zero.mp enough)]
    rfl
  | succ count ih =>
    cases data with
    | nil => rfl
    | cons b rest =>
      have size : ((b :: rest).drop 16).length = (b :: rest).length - 16 := List.length_drop
      rw [List.length_cons] at enough size
      have lines : ((b :: rest).length + 15) / 16 =
          (((b :: rest).drop 16).length + 15) / 16 + 1 := by
        rw [List.length_cons]
        omega
      have fewer : ((b :: rest).drop 16).length ≤ count := by omega
      rw [lines, List.range_succ_eq_map, List.map_cons, List.map_map]
      simp only [linesFrom, bytesPerLine, ih (offset + 16) fewer]
      congr 1
      apply List.map_congr_left
      intro i _
      have place : offset + 16 * (i + 1) = offset + 16 + 16 * i := by omega
      have passed : 16 * (i + 1) = 16 + 16 * i := by omega
      simp only [Function.comp_apply, Nat.succ_eq_add_one]
      rw [place, passed, ← List.drop_drop]

theorem ofLines?_cons {first : List Char} {rest : List (List Char)} {data more : Bytes}
    (own : ofLine? first = some data) (others : ofLines? rest = some more) :
    ofLines? (first :: rest) = some (data ++ more) := by
  unfold ofLines? at others ⊢
  obtain ⟨parts, read, rfl⟩ := Option.map_eq_some_iff.mp others
  rw [List.mapM_cons, own, read]
  rfl

theorem linesFrom_reads {count : Nat} (offset : Nat) {data : Bytes} (enough : data.length ≤ count) :
    ofLines? (linesFrom count offset data) = some data := by
  induction count generalizing offset data with
  | zero =>
    rw [List.eq_nil_of_length_eq_zero (Nat.le_zero.mp enough)]
    rfl
  | succ count ih =>
    cases data with
    | nil => rfl
    | cons b rest =>
      have size : ((b :: rest).drop 16).length = (b :: rest).length - 16 := List.length_drop
      rw [List.length_cons] at enough size
      have fits : ((b :: rest).take 16).length ≤ 16 := List.length_take_le _ _
      have fewer : ((b :: rest).drop 16).length ≤ count := by omega
      have read := ofLines?_cons (ofLine?_line offset fits) (ih (offset + 16) fewer)
      rwa [List.take_append_drop] at read

/-- The bytes as one run are two small digits for each byte, and are read back. -/
theorem hex_reads (data : Bytes) : (∀ d ∈ hex data, d ∈ smallHex) ∧
    (hex data).length = 2 * data.length ∧ ofHex? (hex data) = some data := by
  refine ⟨?_, ?_, ofHex?_pairs (fun n small => (Text.digitChar_small n small).2.1) data⟩
  · intro d member
    obtain ⟨b, -, digit⟩ := List.mem_flatMap.mp member
    obtain ⟨high, low, -⟩ := byte_halves b
    rcases List.mem_pair.mp digit with rfl | rfl
    · exact (Text.digitChar_small _ high).1
    · exact (Text.digitChar_small _ low).1
  · induction data with
    | nil => rfl
    | cons b rest ih =>
      rw [hex] at ih
      rw [hex, List.flatMap_cons, List.length_append, ih, List.length_cons, List.length_cons,
        List.length_cons, List.length_nil]
      omega

/-- A dump has a line for every sixteen bytes that begin. Each has the offset in capital digits, at
least four of them, then sixteen cells for its bytes and then the bytes that can be shown. What
stands in the cells is read back as the bytes, so that no two runs of bytes have the same dump. -/
theorem lines_read_back (data : Bytes) :
    (lines data).length = (data.length + 15) / 16 ∧
      (∀ i line, (lines data)[i]? = some line → ∃ column cells shown,
        line = column ++ [':', ' '] ++ cells.flatten ++ shown ∧
          IsLine (16 * i) ((data.drop (16 * i)).take 16) column cells shown) ∧
      ofLines? (lines data) = some data ∧
      ∀ other, lines other = lines data → other = data := by
  have reads : ∀ data, ofLines? (lines data) = some data :=
    fun data => linesFrom_reads 0 (Nat.le_refl data.length)
  have all := linesFrom_eq 0 (Nat.le_refl data.length)
  refine ⟨?_, ?_, reads data, ?_⟩
  · rw [lines, all, List.length_map, List.length_range]
  · intro i line found
    rw [lines, all, List.getElem?_map] at found
    obtain ⟨place, inside, rfl⟩ := Option.map_eq_some_iff.mp found
    obtain ⟨-, rfl⟩ := List.getElem?_eq_some_iff.mp inside
    rw [List.getElem_range, Nat.zero_add]
    exact ⟨_, _, _, line_eq _ _, line_isLine _ (List.length_take_le _ _)⟩
  · intro other same
    have read := reads other
    rw [same, reads data, Option.some.injEq] at read
    exact read.symm

example : (lines (List.replicate 16 0 ++ [0x41, 0x0A]))[1]? =
    some ("0010: 41 0A ".toList ++ List.replicate 42 ' ' ++ "A.".toList) := by rfl

end StructuredLog.Dump
