import Mathlib.Algebra.Group.Int.Defs
import Mathlib.Data.List.Sort
import Std.Data.HashSet.Lemmas
import StructuredLog.Config.Range
import StructuredLog.Proofs.Json.Structure

/-!
Ranges of whole numbers: what a list of items stands for, and which item is at fault when it stands
for nothing. Of equal numbers the first one stays.
-/

namespace StructuredLog.Config

open Json (Value Integer)

theorem firstOnes_eq (seen : Std.HashSet Int) (numbers : List Int) :
    firstOnes seen numbers = (numbers.filter fun i => !seen.contains i).eraseDups := by
  induction numbers generalizing seen with
  | nil => rfl
  | cons i rest ih =>
    rw [firstOnes]
    cases known : seen.contains i with
    | true => simp only [↓reduceIte, ih, List.filter_cons, known, Bool.not_true, Bool.false_eq_true]
    | false =>
      simp only [Bool.false_eq_true, ↓reduceIte, ih, List.filter_cons, known, Bool.not_false,
        List.eraseDups_cons, List.filter_filter, Std.HashSet.contains_insert, Bool.not_or]
      congr 2
      apply List.filter_congr
      intro j _
      rw [BEq.comm]

theorem rangeSet_eq (items : List Value) :
    rangeSet items = (listNumbers items).map List.eraseDups := by
  have all : firstOnes ∅ = List.eraseDups := by
    funext numbers
    rw [firstOnes_eq]
    congr 1
    exact List.filter_eq_self.mpr fun i _ => by simp
  rw [rangeSet, all]

section FirstOnes

/-- The numbers of a list without repetitions, in the order in which they first occur. -/
structure KeepsFirst (all numbers : List Int) : Prop where
  nodup : numbers.Nodup
  same : ∀ i, i ∈ numbers ↔ i ∈ all
  order : numbers.Pairwise fun i j => all.idxOf i < all.idxOf j

theorem mem_firstOnes {seen : Std.HashSet Int} {all : List Int} {i : Int} :
    i ∈ firstOnes seen all ↔ i ∈ all ∧ seen.contains i = false := by
  rw [firstOnes_eq, List.mem_eraseDups, List.mem_filter, Bool.not_eq_true']

theorem firstOnes_ordered (seen : Std.HashSet Int) (all : List Int) :
    (firstOnes seen all).Pairwise fun i j => all.idxOf i < all.idxOf j := by
  induction all generalizing seen with
  | nil => exact .nil
  | cons i rest ih =>
    -- What comes later than the first number is not equal to it, so that it moves by one place.
    have later : ∀ seen : Std.HashSet Int, seen.contains i = true →
        (firstOnes seen rest).Pairwise fun j k => (i :: rest).idxOf j < (i :: rest).idxOf k := by
      intro seen known
      have other : ∀ j ∈ firstOnes seen rest, (i :: rest).idxOf j = rest.idxOf j + 1 := by
        intro j member
        apply List.idxOf_cons_ne
        rintro rfl
        rw [(mem_firstOnes.mp member).2] at known
        cases known
      apply (ih seen).imp_of_mem
      intro j k first second before
      rw [other j first, other k second]
      omega
    rw [firstOnes]
    split
    · next known => exact later seen known
    · have known : (seen.insert i).contains i = true := by simp
      refine .cons (fun j member => ?_) (later _ known)
      have differ : i ≠ j := by
        rintro rfl
        rw [(mem_firstOnes.mp member).2] at known
        cases known
      rw [List.idxOf_cons_self, List.idxOf_cons_ne _ differ]
      omega

theorem firstOnes_keepsFirst (all : List Int) : KeepsFirst all (firstOnes ∅ all) where
  nodup := by
    have order := firstOnes_ordered ∅ all
    exact order.imp fun before same => by simp [same] at before
  same := by simp [mem_firstOnes]
  order := firstOnes_ordered ∅ all

theorem KeepsFirst.unique {all first second : List Int} (one : KeepsFirst all first)
    (two : KeepsFirst all second) : first = second := by
  have members : first.Perm second :=
    (List.perm_ext_iff_of_nodup one.nodup two.nodup).mpr fun i =>
      (one.same i).trans (two.same i).symm
  apply members.eq_of_pairwise ?_ one.order two.order
  intro i j _ _ before after
  omega

end FirstOnes

structure Counts (first last : Int) (numbers : List Int) : Prop where
  ascending : numbers.Pairwise (· < ·)
  between : ∀ i, i ∈ numbers ↔ first ≤ i ∧ i ≤ last

inductive Interval : List Value → Int → Int → Prop where
  | intro {a b : Integer} (signed : b.val < 2 ^ 63) (ordered : a.val ≤ b.val) :
      Interval [.num (.integer a), .num (.integer b)] a.val b.val

/-- What a list of items stands for: a signed number for itself, a pair of them in order for the
numbers from one to the other, and any other array for what its own items stand for. -/
inductive Denotes : List Value → List Int → Prop where
  | nil : Denotes [] []
  | number {n : Integer} {rest : List Value} {others : List Int} (signed : n.val < 2 ^ 63)
      (later : Denotes rest others) : Denotes (.num (.integer n) :: rest) (n.val :: others)
  | interval {items rest : List Value} {first last : Int} {own others : List Int}
      (interval : Interval items first last) (counts : Counts first last own)
      (later : Denotes rest others) : Denotes (.arr items :: rest) (own ++ others)
  | list {items rest : List Value} {own others : List Int}
      (plain : ∀ first last, ¬Interval items first last) (inner : Denotes items own)
      (later : Denotes rest others) : Denotes (.arr items :: rest) (own ++ others)

/-- Items that stand for nothing: numbers that are no signed ones, and what is neither a number nor
an array. -/
inductive Faulty : Value → RangeFault → Prop where
  | real (x : Json.Real) : Faulty (.num (.real x)) (.notInteger (.real x))
  | large {n : Integer} (large : 2 ^ 63 ≤ n.val) :
      Faulty (.num (.integer n)) (.notInteger (.integer n))
  | other {v : Value} (number : v.kind ≠ .number) (array : v.kind ≠ .array) :
      Faulty v (.badItem v.kind)

/-- An item that counts: one of the list, or of an array in it that is no interval. -/
inductive Reaches : List Value → Value → Prop where
  | here {items : List Value} {v : Value} (member : v ∈ items) : Reaches items v
  | inside {items inner : List Value} {v : Value} (member : .arr inner ∈ items)
      (plain : ∀ first last, ¬Interval inner first last) (reaches : Reaches inner v) :
      Reaches items v

inductive FirstFault : List Value → RangeFault → Prop where
  | here {v : Value} {fault : RangeFault} {rest : List Value} (faulty : Faulty v fault) :
      FirstFault (v :: rest) fault
  | inside {items rest : List Value} {fault : RangeFault}
      (plain : ∀ first last, ¬Interval items first last) (inner : FirstFault items fault) :
      FirstFault (.arr items :: rest) fault
  | later {v : Value} {rest : List Value} {own : List Int} {fault : RangeFault}
      (fine : Denotes [v] own) (others : FirstFault rest fault) : FirstFault (v :: rest) fault

section Denotation

theorem mem_countFrom {first i : Int} {count : Nat} :
    i ∈ countFrom first count ↔ first ≤ i ∧ i < first + count := by
  induction count generalizing first with
  | zero => simp [countFrom]
  | succ count ih =>
    rw [countFrom, List.mem_cons, ih]
    omega

theorem countFrom_ascending (first : Int) (count : Nat) :
    (countFrom first count).Pairwise (· < ·) := by
  induction count generalizing first with
  | zero => exact .nil
  | succ count ih =>
    refine .cons (fun i member => ?_) (ih (first + 1))
    have bound := (mem_countFrom.mp member).1
    omega

theorem countFrom_counts {first last : Int} (ordered : first ≤ last) :
    Counts first last (countFrom first (last - first + 1).toNat) where
  ascending := countFrom_ascending first _
  between := by
    intro i
    rw [mem_countFrom]
    omega

theorem Counts.unique {first last : Int} {own others : List Int} (one : Counts first last own)
    (two : Counts first last others) : own = others :=
  one.ascending.eq_of_mem_iff two.ascending fun i => (one.between i).trans (two.between i).symm

theorem signed?_some {n : Integer} (signed : n.val < 2 ^ 63) :
    (Value.num (.integer n)).signed? = some n.val := if_pos signed

theorem signed?_none {n : Integer} (large : 2 ^ 63 ≤ n.val) :
    (Value.num (.integer n)).signed? = none := if_neg (by omega)

theorem signed?_eq_some {v : Value} {i : Int} (signed : v.signed? = some i) :
    ∃ n : Integer, v = .num (.integer n) ∧ n.val < 2 ^ 63 ∧ n.val = i := by
  cases v with
  | num n =>
    cases n with
    | integer n =>
      obtain ⟨small, same⟩ := Option.ite_none_right_eq_some.mp signed
      exact ⟨n, rfl, small, Option.some.inj same⟩
    | real x => cases signed
  | _ => cases signed

theorem Interval.ordered {items : List Value} {first last : Int}
    (interval : Interval items first last) : first ≤ last := by
  cases interval with
  | intro signed ordered => exact ordered

theorem bounds?_interval {items : List Value} {first last : Int} :
    bounds? items = some (first, last) ↔ Interval items first last := by
  constructor
  · intro found
    unfold bounds? at found
    split at found
    · split at found
      · next low high lower upper =>
        obtain ⟨a, rfl, -, rfl⟩ := signed?_eq_some lower
        obtain ⟨b, rfl, small, rfl⟩ := signed?_eq_some upper
        obtain ⟨ordered, same⟩ := Option.ite_none_right_eq_some.mp found
        cases same
        exact .intro small ordered
      · cases found
    · cases found
  · rintro ⟨signed, ordered⟩
    rw [bounds?, signed?_some signed, signed?_some (lt_of_le_of_lt ordered signed)]
    exact if_pos ordered

theorem bounds?_plain {items : List Value} :
    bounds? items = none ↔ ∀ first last, ¬Interval items first last := by
  simp only [← bounds?_interval, Option.eq_none_iff_forall_ne_some, Prod.forall]

theorem itemNumbers_faulty {v : Value} {fault : RangeFault} (faulty : Faulty v fault) :
    itemNumbers v = .error (.badRange fault) := by
  cases faulty with
  | real x => rfl
  | @large n large =>
    have none : (Json.Number.integer n).signed? = none := signed?_none large
    rw [itemNumbers, none]
  | other number array => cases v <;> first | rfl | contradiction

theorem itemNumbers_interval {items : List Value} {first last : Int} {own : List Int}
    (interval : Interval items first last) (counts : Counts first last own) :
    itemNumbers (.arr items) = .ok own := by
  rw [itemNumbers, bounds?_interval.mpr interval,
    counts.unique (countFrom_counts interval.ordered)]

theorem itemNumbers_list {items : List Value} (plain : ∀ first last, ¬Interval items first last) :
    itemNumbers (.arr items) = listNumbers items := by
  rw [itemNumbers, bounds?_plain.mpr plain]

theorem listNumbers_cons {v : Value} {rest : List Value} {own : List Int}
    (first : itemNumbers v = .ok own) :
    listNumbers (v :: rest) = (listNumbers rest).map (own ++ ·) := by
  rw [listNumbers, first]
  cases listNumbers rest <;> rfl

theorem Denotes.numbers {items : List Value} {all : List Int} (denotes : Denotes items all) :
    listNumbers items = .ok all := by
  induction denotes with
  | nil => rfl
  | @number n rest others signed later ih =>
    have some : (Json.Number.integer n).signed? = some n.val := signed?_some signed
    have own : itemNumbers (.num (.integer n)) = .ok [n.val] := by rw [itemNumbers, some]
    rw [listNumbers_cons own, ih]
    rfl
  | interval interval counts later ih =>
    rw [listNumbers_cons (itemNumbers_interval interval counts), ih]
    rfl
  | list plain inner later own ih =>
    rw [listNumbers_cons ((itemNumbers_list plain).trans own), ih]
    rfl

theorem Denotes.item {v : Value} {own : List Int} (denotes : Denotes [v] own) :
    itemNumbers v = .ok own := by
  have all := denotes.numbers
  rw [listNumbers] at all
  cases first : itemNumbers v with
  | error error =>
    rw [first] at all
    cases all
  | ok numbers =>
    rw [first] at all
    have same : numbers ++ [] = own := Except.ok.inj all
    rw [← same, List.append_nil]

theorem FirstFault.refused {items : List Value} {fault : RangeFault}
    (first : FirstFault items fault) : listNumbers items = .error (.badRange fault) := by
  induction first with
  | here faulty =>
    rw [listNumbers, itemNumbers_faulty faulty]
    rfl
  | inside plain inner ih =>
    rw [listNumbers, itemNumbers_list plain, ih]
    rfl
  | later fine others ih =>
    rw [listNumbers_cons fine.item, ih]
    rfl

theorem Denotes.cons {v : Value} {rest : List Value} {own others : List Int}
    (first : Denotes [v] own) (later : Denotes rest others) :
    Denotes (v :: rest) (own ++ others) := by
  cases first with
  | number signed nothing =>
    cases nothing
    exact .number signed later
  | interval interval counts nothing =>
    cases nothing
    rw [List.append_nil]
    exact .interval interval counts later
  | list plain inner nothing =>
    cases nothing
    rw [List.append_nil]
    exact .list plain inner later

theorem FirstFault.cons {v : Value} {fault : RangeFault} (first : FirstFault [v] fault)
    (rest : List Value) : FirstFault (v :: rest) fault := by
  cases first with
  | here faulty => exact .here faulty
  | inside plain inner => exact .inside plain inner
  | later fine others => cases others

theorem list_denotes {items : List Value}
    (each : ∀ v ∈ items, (∃ own, Denotes [v] own) ∨ ∃ fault, FirstFault [v] fault) :
    (∃ all, Denotes items all) ∨ ∃ fault, FirstFault items fault := by
  induction items with
  | nil => exact .inl ⟨[], .nil⟩
  | cons v rest ih =>
    rw [List.forall_mem_cons] at each
    rcases each.1 with ⟨own, first⟩ | ⟨fault, first⟩
    · rcases ih each.2 with ⟨others, later⟩ | ⟨fault, later⟩
      · exact .inl ⟨own ++ others, first.cons later⟩
      · exact .inr ⟨fault, .later first later⟩
    · exact .inr ⟨fault, first.cons rest⟩

theorem item_denotes (v : Value) : (∃ own, Denotes [v] own) ∨ ∃ fault, FirstFault [v] fault := by
  induction v using Value.structural with
  | null => exact .inr ⟨_, .here (.other nofun nofun)⟩
  | bool b => exact .inr ⟨_, .here (.other nofun nofun)⟩
  | str s => exact .inr ⟨_, .here (.other nofun nofun)⟩
  | obj members _ => exact .inr ⟨_, .here (.other nofun nofun)⟩
  | num n =>
    cases n with
    | real x => exact .inr ⟨_, .here (.real x)⟩
    | integer n =>
      rcases lt_or_ge n.val (2 ^ 63) with signed | large
      · exact .inl ⟨_, .number signed .nil⟩
      · exact .inr ⟨_, .here (.large large)⟩
  | arr items ih =>
    cases found : bounds? items with
    | some ends =>
      rcases ends with ⟨first, last⟩
      have interval := bounds?_interval.mp found
      exact .inl ⟨_, .interval interval (countFrom_counts interval.ordered) .nil⟩
    | none =>
      have plain := bounds?_plain.mp found
      rcases list_denotes ih with ⟨own, inner⟩ | ⟨fault, inner⟩
      · exact .inl ⟨_, .list plain inner .nil⟩
      · exact .inr ⟨_, .inside plain inner⟩

theorem Reaches.cons {items : List Value} {v : Value} (reaches : Reaches items v) (w : Value) :
    Reaches (w :: items) v := by
  cases reaches with
  | here member => exact .here (List.mem_cons_of_mem w member)
  | inside member plain inner => exact .inside (List.mem_cons_of_mem w member) plain inner

theorem FirstFault.reaches {items : List Value} {fault : RangeFault}
    (first : FirstFault items fault) : ∃ v, Reaches items v ∧ Faulty v fault := by
  induction first with
  | here faulty => exact ⟨_, .here List.mem_cons_self, faulty⟩
  | inside plain inner ih =>
    obtain ⟨v, reaches, faulty⟩ := ih
    exact ⟨v, .inside List.mem_cons_self plain reaches, faulty⟩
  | later fine others ih =>
    obtain ⟨v, reaches, faulty⟩ := ih
    exact ⟨v, reaches.cons _, faulty⟩

theorem reaches_cons {w : Value} {rest : List Value} {v : Value} (reaches : Reaches (w :: rest) v) :
    v = w ∨ (∃ inner, w = .arr inner ∧ (∀ first last, ¬Interval inner first last) ∧
      Reaches inner v) ∨ Reaches rest v := by
  cases reaches with
  | here member => exact (List.mem_cons.mp member).imp_right fun later => .inr (.here later)
  | inside member plain inner =>
    rcases List.mem_cons.mp member with same | later
    · exact .inr (.inl ⟨_, same.symm, plain, inner⟩)
    · exact .inr (.inr (.inside later plain inner))

theorem Denotes.faultless {items : List Value} {all : List Int} (denotes : Denotes items all)
    {v : Value} (reaches : Reaches items v) {fault : RangeFault} : ¬Faulty v fault := by
  induction denotes with
  | nil =>
    cases reaches with
    | here member => cases member
    | inside member _ _ => cases member
  | number signed later ih =>
    rcases reaches_cons reaches with rfl | ⟨inner, same, -, -⟩ | others
    · rintro (_ | large | ⟨number, -⟩)
      · omega
      · exact number rfl
    · cases same
    · exact ih others
  | interval interval counts later ih =>
    rcases reaches_cons reaches with rfl | ⟨inner, same, plain, -⟩ | others
    · rintro (_ | _ | ⟨-, array⟩)
      exact array rfl
    · cases same
      exact absurd interval (plain _ _)
    · exact ih others
  | list plain inner later own ih =>
    rcases reaches_cons reaches with rfl | ⟨inner, same, -, within⟩ | others
    · rintro (_ | _ | ⟨-, array⟩)
      exact array rfl
    · cases same
      exact own within
    · exact ih others

/-- Items either stand for numbers, and make a range of them, or are refused for their first
fault. -/
theorem rangeSet_either (items : List Value) :
    (∃ all, Denotes items all ∧ rangeSet items = .ok (firstOnes ∅ all)) ∨
      ∃ fault, FirstFault items fault ∧ rangeSet items = .error (.badRange fault) := by
  rcases list_denotes fun v (_ : v ∈ items) => item_denotes v with ⟨all, denotes⟩ | ⟨fault, first⟩
  · refine .inl ⟨all, denotes, ?_⟩
    rw [rangeSet, denotes.numbers]
    rfl
  · refine .inr ⟨fault, first, ?_⟩
    rw [rangeSet, first.refused]
    rfl

theorem Denotes.not_fault {items : List Value} {all : List Int} (denotes : Denotes items all)
    {fault : RangeFault} : ¬FirstFault items fault := by
  intro first
  obtain ⟨v, reaches, faulty⟩ := first.reaches
  exact denotes.faultless reaches faulty

theorem Denotes.unique {items : List Value} {own others : List Int} (one : Denotes items own)
    (two : Denotes items others) : own = others :=
  Except.ok.inj (one.numbers.symm.trans two.numbers)

theorem FirstFault.unique {items : List Value} {fault other : RangeFault}
    (one : FirstFault items fault) (two : FirstFault items other) : fault = other := by
  have same := one.refused.symm.trans two.refused
  cases same
  rfl

/-- A range is the set of the numbers that its items stand for, in the order in which they come
first. It is refused when it reaches an item that is at fault, and the first such item decides with
which fault. -/
theorem rangeSet_denotes (items : List Value) :
    (∀ numbers, rangeSet items = .ok numbers ↔
        ∃ all, Denotes items all ∧ KeepsFirst all numbers) ∧
      (∀ error, rangeSet items = .error error ↔
        ∃ fault, FirstFault items fault ∧ error = .badRange fault) ∧
      ((∃ error, rangeSet items = .error error) ↔
        ∃ v fault, Reaches items v ∧ Faulty v fault) := by
  rcases rangeSet_either items with ⟨all, denotes, granted⟩ | ⟨fault, first, refused⟩
  · refine ⟨fun numbers => ?_, fun error => ?_, ?_⟩
    · rw [granted]
      constructor
      · rintro ⟨⟩
        exact ⟨all, denotes, firstOnes_keepsFirst all⟩
      · rintro ⟨others, same, keeps⟩
        rw [same.unique denotes] at keeps
        rw [keeps.unique (firstOnes_keepsFirst all)]
    · rw [granted]
      exact ⟨nofun, fun ⟨fault, first, _⟩ => absurd first denotes.not_fault⟩
    · rw [granted]
      constructor
      · rintro ⟨error, ⟨⟩⟩
      · rintro ⟨v, fault, reaches, faulty⟩
        exact absurd faulty (denotes.faultless reaches)
  · refine ⟨fun numbers => ?_, fun error => ?_, ?_⟩
    · rw [refused]
      exact ⟨nofun, fun ⟨all, denotes, _⟩ => absurd first denotes.not_fault⟩
    · rw [refused]
      constructor
      · rintro ⟨⟩
        exact ⟨fault, first, rfl⟩
      · rintro ⟨other, same, rfl⟩
        rw [same.unique first]
    · obtain ⟨v, reaches, faulty⟩ := first.reaches
      exact ⟨fun _ => ⟨v, fault, reaches, faulty⟩, fun _ => ⟨_, refused⟩⟩

end Denotation

/-- An interval may end at the largest signed number, and a pair that falls is a list. -/
example :
    rangeSet [.arr [.num (.integer ⟨9223372036854775806, by decide, by decide⟩),
        .num (.integer ⟨9223372036854775807, by decide, by decide⟩)],
      .arr [.num (.integer ⟨9223372036854775807, by decide, by decide⟩),
        .num (.integer ⟨-9223372036854775808, by decide, by decide⟩)]] =
      .ok [9223372036854775806, 9223372036854775807, -9223372036854775808] := by
  rw [rangeSet_eq]
  rfl

end StructuredLog.Config
