import Mathlib.Data.List.Basic
import StructuredLog.Proofs.Text.Lines
import StructuredLog.Proofs.Text.Utf8

/-!
Bytes as texts: what is read is what was written. A first byte says how many follow it, what the
next one may be and what the value begins with; the bytes that follow complete the value. Every
character has one such spelling, and whatever is spelled so is a character; the feed that ends a
line is in the spelling of no other character, so that texts and their bytes have the same lines.
-/

namespace StructuredLog.Text

def Continues (b : UInt8) : Prop := 0x80 ≤ b.toNat ∧ b.toNat ≤ 0xBF

namespace Pending

def Admits (p : Pending) (b : UInt8) : Prop :=
  p.low.toNat ≤ b.toNat ∧ b.toNat ≤ p.high.toNat

/-- The bytes that complete a character: as many as are missing, the first of them within its
bounds. -/
structure Completes (p : Pending) (tail : Bytes) : Prop where
  length : tail.length = p.missing
  first : ∀ b, tail.head? = some b → p.Admits b
  later : ∀ b ∈ tail.tail, Continues b

def completed (p : Pending) (tail : Bytes) : Nat :=
  tail.foldl (fun value b => value * 64 + (b.toNat - 0x80)) p.value

def next (p : Pending) (b : UInt8) : Pending :=
  ⟨p.missing - 1, 0x80, 0xBF, p.value * 64 + (b.toNat - 0x80)⟩

theorem completed_cons (p : Pending) (b : UInt8) (tail : Bytes) :
    p.completed (b :: tail) = (p.next b).completed tail := by
  simp only [completed, next, List.foldl_cons]

theorem next_missing {p : Pending} (more : 1 < p.missing) (b : UInt8) :
    0 < (p.next b).missing := by
  show 0 < p.missing - 1
  omega

theorem Completes.next {p : Pending} {b : UInt8} {tail : Bytes}
    (completes : p.Completes (b :: tail)) : (p.next b).Completes tail where
  length := by
    have length := completes.length
    rw [List.length_cons] at length
    show tail.length = p.missing - 1
    omega
  first := fun c head => completes.later c (List.mem_of_mem_head? head)
  later := fun c member => completes.later c (List.mem_of_mem_tail member)

theorem Completes.cons {p : Pending} {b : UInt8} {tail : Bytes} (missing : 0 < p.missing)
    (admits : p.Admits b) (completes : (p.next b).Completes tail) : p.Completes (b :: tail) where
  length := by
    have length : tail.length = p.missing - 1 := completes.length
    rw [List.length_cons]
    omega
  first := by
    rintro c same
    cases same
    exact admits
  later := by
    intro c member
    cases tail with
    | nil => cases member
    | cons d tail =>
      rcases List.mem_cons.mp member with rfl | later
      · exact completes.first c rfl
      · exact completes.later c later

theorem completes_nil {p : Pending} (complete : p.missing = 0) : p.Completes [] where
  length := complete.symm
  first := by
    intro b head
    cases head
  later := by
    intro b member
    cases member

end Pending

section Scan

variable {p : Pending} {b : UInt8}

theorem admits_iff : p.Admits b ↔ (p.low ≤ b && b ≤ p.high) = true := by
  simp only [Pending.Admits, Bool.and_eq_true, decide_eq_true_eq, UInt8.le_iff_toNat_le]

theorem scan_more (more : 1 < p.missing) (admits : p.Admits b) (rest : Bytes) :
    scan (some p) (b :: rest) = scan (some (p.next b)) rest := by
  rcases p with ⟨_ | _ | missing, low, high, value⟩
  · cases more
  · exact absurd more (Nat.lt_irrefl 1)
  · rw [scan, if_pos (admits_iff.mp admits)]
    rfl

theorem scan_last (single : p.missing = 1) (admits : p.Admits b) (rest : Bytes) :
    scan (some p) (b :: rest) = some (Char.ofNat (p.next b).value) :: scan none rest := by
  rcases p with ⟨missing, low, high, value⟩
  cases single
  rw [scan, if_pos (admits_iff.mp admits)]
  rfl

theorem scan_completes {tail : Bytes} (missing : 0 < p.missing) (completes : p.Completes tail)
    (rest : Bytes) :
    scan (some p) (tail ++ rest) = some (Char.ofNat (p.completed tail)) :: scan none rest := by
  induction tail generalizing p with
  | nil =>
    have length : 0 = p.missing := completes.length
    omega
  | cons b tail ih =>
    have admits := completes.first b rfl
    have later := completes.next
    by_cases single : p.missing = 1
    · have none : tail = [] := by
        have length := completes.length
        rw [single, List.length_cons] at length
        exact List.eq_nil_of_length_eq_zero (by omega)
      rw [none, Pending.completed_cons, List.singleton_append, scan_last single admits]
      rfl
    · have more : 1 < p.missing := by omega
      rw [List.cons_append, scan_more more admits, Pending.completed_cons,
        ih (Pending.next_missing more b) later]

/-- A character that has begun is completed, or there is something that is no character. -/
theorem scan_pending (missing : 0 < p.missing) (data : Bytes) :
    (∃ tail rest, data = tail ++ rest ∧ p.Completes tail) ∨ none ∈ scan (some p) data := by
  induction data generalizing p with
  | nil => exact .inr List.mem_cons_self
  | cons b data ih =>
    by_cases admits : p.Admits b
    · by_cases single : p.missing = 1
      · have complete : (p.next b).missing = 0 := by
          show p.missing - 1 = 0
          omega
        exact .inl ⟨[b], data, rfl, .cons missing admits (Pending.completes_nil complete)⟩
      · have more : 1 < p.missing := by omega
        rw [scan_more more admits]
        rcases ih (Pending.next_missing more b) with ⟨tail, rest, rfl, completes⟩ | wrong
        · exact .inl ⟨b :: tail, rest, rfl, .cons missing admits completes⟩
        · exact .inr wrong
    · right
      rw [scan, if_neg fun inside => admits (admits_iff.mpr inside)]
      exact List.mem_cons_self

end Scan

section FirstByte

variable {b : UInt8}

/-- The first bytes of characters of more than one byte, and what is pending after them. The bounds
on the next byte keep out what has a shorter spelling, and what is no character. -/
inductive Leads (b : UInt8) : Pending → Prop where
  | two (above : 0xC2 ≤ b.toNat) (below : b.toNat ≤ 0xDF) :
      Leads b ⟨1, 0x80, 0xBF, b.toNat - 0xC0⟩
  | three (above : 0xE0 ≤ b.toNat) (below : b.toNat ≤ 0xEF) :
      Leads b ⟨2, if b.toNat = 0xE0 then 0xA0 else 0x80, if b.toNat = 0xED then 0x9F else 0xBF,
        b.toNat - 0xE0⟩
  | four (above : 0xF0 ≤ b.toNat) (below : b.toNat ≤ 0xF4) :
      Leads b ⟨3, if b.toNat = 0xF0 then 0x90 else 0x80, if b.toNat = 0xF4 then 0x8F else 0xBF,
        b.toNat - 0xF0⟩

theorem Leads.missing {p : Pending} (leads : Leads b p) : 0 < p.missing := by
  cases leads <;> exact Nat.succ_pos _

theorem beginChar_eq (b : UInt8) : beginChar b =
    if b.toNat ≤ 0x7F then ([some (Char.ofNat b.toNat)], none)
    else if 0xC2 ≤ b.toNat ∧ b.toNat ≤ 0xDF then ([], some ⟨1, 0x80, 0xBF, b.toNat - 0xC0⟩)
    else if b.toNat = 0xE0 then ([], some ⟨2, 0xA0, 0xBF, 0⟩)
    else if b.toNat = 0xED then ([], some ⟨2, 0x80, 0x9F, 0xD⟩)
    else if 0xE1 ≤ b.toNat ∧ b.toNat ≤ 0xEF then ([], some ⟨2, 0x80, 0xBF, b.toNat - 0xE0⟩)
    else if b.toNat = 0xF0 then ([], some ⟨3, 0x90, 0xBF, 0⟩)
    else if b.toNat = 0xF4 then ([], some ⟨3, 0x80, 0x8F, 4⟩)
    else if 0xF1 ≤ b.toNat ∧ b.toNat ≤ 0xF3 then ([], some ⟨3, 0x80, 0xBF, b.toNat - 0xF0⟩)
    else ([none], none) := by
  simp only [beginChar, UInt8.le_iff_toNat_le, ← UInt8.toNat_inj, UInt8.reduceToNat,
    Bool.and_eq_true, decide_eq_true_eq]

theorem beginChar_one (small : b.toNat ≤ 0x7F) :
    beginChar b = ([some (Char.ofNat b.toNat)], none) := by
  rw [beginChar_eq, if_pos small]

theorem beginChar_leads {p : Pending} (leads : Leads b p) : beginChar b = ([], some p) := by
  rw [beginChar_eq]
  cases leads with
  | two above below => rw [if_neg (by omega), if_pos ⟨above, below⟩]
  | three above below =>
    rw [if_neg (by omega), if_neg (by omega)]
    by_cases low : b.toNat = 0xE0
    · simp only [low, ↓reduceIte, Nat.sub_self, Nat.reduceEqDiff]
    by_cases cut : b.toNat = 0xED
    · simp only [cut, ↓reduceIte, Nat.reduceEqDiff, Nat.reduceSub]
    · simp only [if_neg low, if_neg cut]
      rw [if_pos (by omega)]
  | four above below =>
    rw [if_neg (by omega), if_neg (by omega), if_neg (by omega), if_neg (by omega),
      if_neg (by omega)]
    by_cases low : b.toNat = 0xF0
    · simp only [low, ↓reduceIte, Nat.sub_self, Nat.reduceEqDiff]
    by_cases cut : b.toNat = 0xF4
    · simp only [cut, ↓reduceIte, Nat.reduceEqDiff, Nat.reduceSub]
    · simp only [if_neg low, if_neg cut]
      rw [if_pos (by omega)]

theorem beginChar_cases (b : UInt8) :
    b.toNat ≤ 0x7F ∨ (∃ p, Leads b p) ∨ beginChar b = ([none], none) := by
  by_cases one : b.toNat ≤ 0x7F
  · exact .inl one
  right
  by_cases two : 0xC2 ≤ b.toNat ∧ b.toNat ≤ 0xDF
  · exact .inl ⟨_, .two two.1 two.2⟩
  by_cases three : 0xE0 ≤ b.toNat ∧ b.toNat ≤ 0xEF
  · exact .inl ⟨_, .three three.1 three.2⟩
  by_cases four : 0xF0 ≤ b.toNat ∧ b.toNat ≤ 0xF4
  · exact .inl ⟨_, .four four.1 four.2⟩
  right
  rw [beginChar_eq, if_neg one, if_neg two, if_neg (by omega), if_neg (by omega),
    if_neg (by omega), if_neg (by omega), if_neg (by omega), if_neg (by omega)]

end FirstByte

section Spelling

variable {c : Char}

theorem toNat_byte {n : Nat} (small : n < 256) : (UInt8.ofNat n).toNat = n :=
  UInt8.toNat_ofNat_of_lt' small

theorem byte_eq {n : Nat} {b : UInt8} (same : n = b.toNat) : UInt8.ofNat n = b := by
  rw [same, UInt8.ofNat_toNat]

theorem toNat_ofNat {n : Nat} (valid : n.isValidChar) : (Char.ofNat n).toNat = n := by
  rw [Char.ofNat, dif_pos valid]
  rfl

theorem toNat_valid (c : Char) : c.toNat < 0xD800 ∨ 0xDFFF < c.toNat ∧ c.toNat < 0x110000 := c.valid

theorem encodeChar_one (below : c.toNat ≤ 0x7F) :
    String.utf8EncodeChar c = [UInt8.ofNat c.toNat] :=
  if_pos below

theorem encodeChar_two (above : 0x7F < c.toNat) (below : c.toNat ≤ 0x7FF) :
    String.utf8EncodeChar c =
      [UInt8.ofNat (c.toNat / 64 + 0xC0), UInt8.ofNat (c.toNat % 64 + 0x80)] := by
  have high : c.toNat / 64 % 32 = c.toNat / 64 := by omega
  rw [← high]
  exact (if_neg (Nat.not_le.mpr above)).trans (if_pos below)

theorem encodeChar_three (above : 0x7FF < c.toNat) (below : c.toNat ≤ 0xFFFF) :
    String.utf8EncodeChar c =
      [UInt8.ofNat (c.toNat / 4096 + 0xE0), UInt8.ofNat (c.toNat / 64 % 64 + 0x80),
        UInt8.ofNat (c.toNat % 64 + 0x80)] := by
  have high : c.toNat / 4096 % 16 = c.toNat / 4096 := by omega
  have more : ¬c.toNat ≤ 0x7F := by omega
  rw [← high]
  exact (if_neg more).trans ((if_neg (Nat.not_le.mpr above)).trans (if_pos below))

theorem encodeChar_four (above : 0xFFFF < c.toNat) :
    String.utf8EncodeChar c =
      [UInt8.ofNat (c.toNat / 262144 + 0xF0), UInt8.ofNat (c.toNat / 4096 % 64 + 0x80),
        UInt8.ofNat (c.toNat / 64 % 64 + 0x80), UInt8.ofNat (c.toNat % 64 + 0x80)] := by
  have valid := toNat_valid c
  have high : c.toNat / 262144 % 8 = c.toNat / 262144 := by omega
  have more : ¬c.toNat ≤ 0x7F := by omega
  have still : ¬c.toNat ≤ 0x7FF := by omega
  rw [← high]
  exact (if_neg more).trans ((if_neg still).trans (if_neg (Nat.not_le.mpr above)))

/-- Bytes that complete a character after its first byte are its spelling. -/
theorem encodeChar_completed {b : UInt8} {p : Pending} {tail : Bytes} (leads : Leads b p)
    (completes : p.Completes tail) :
    String.utf8EncodeChar (Char.ofNat (p.completed tail)) = b :: tail := by
  obtain ⟨length, first, later⟩ := completes
  cases leads with
  | two above below =>
    obtain ⟨x, rfl⟩ := List.length_eq_one_iff.mp length
    obtain ⟨low, high⟩ := first x rfl
    simp only [UInt8.reduceToNat] at low high
    simp only [Pending.completed, List.foldl_cons, List.foldl_nil]
    generalize value : (b.toNat - 0xC0) * 64 + (x.toNat - 0x80) = n
    have shown : (Char.ofNat n).toNat = n := toNat_ofNat (.inl (by omega))
    rw [encodeChar_two (by omega) (by omega), shown, byte_eq (b := b) (by omega),
      byte_eq (b := x) (by omega)]
  | three above below =>
    obtain ⟨x, y, rfl⟩ := List.length_eq_two.mp length
    obtain ⟨low, high⟩ := first x rfl
    obtain ⟨low', high'⟩ := later y List.mem_cons_self
    simp only [apply_ite UInt8.toNat, UInt8.reduceToNat] at low high
    have front : 0x80 ≤ x.toNat ∧ (b.toNat = 0xE0 → 0xA0 ≤ x.toNat) := by split at low <;> omega
    have back : x.toNat ≤ 0xBF ∧ (b.toNat = 0xED → x.toNat ≤ 0x9F) := by split at high <;> omega
    clear low high
    simp only [Pending.completed, List.foldl_cons, List.foldl_nil]
    generalize value :
      ((b.toNat - 0xE0) * 64 + (x.toNat - 0x80)) * 64 + (y.toNat - 0x80) = n
    have whole : n < 0xD800 ∨ 0xDFFF < n ∧ n < 0x110000 := by omega
    have shown : (Char.ofNat n).toNat = n := toNat_ofNat whole
    rw [encodeChar_three (by omega) (by omega), shown, byte_eq (b := b) (by omega),
      byte_eq (b := x) (by omega), byte_eq (b := y) (by omega)]
  | four above below =>
    obtain ⟨x, y, z, rfl⟩ := List.length_eq_three.mp length
    obtain ⟨low, high⟩ := first x rfl
    obtain ⟨low', high'⟩ := later y List.mem_cons_self
    obtain ⟨low'', high''⟩ := later z (List.mem_cons_of_mem _ List.mem_cons_self)
    simp only [apply_ite UInt8.toNat, UInt8.reduceToNat] at low high
    have front : 0x80 ≤ x.toNat ∧ (b.toNat = 0xF0 → 0x90 ≤ x.toNat) := by split at low <;> omega
    have back : x.toNat ≤ 0xBF ∧ (b.toNat = 0xF4 → x.toNat ≤ 0x8F) := by split at high <;> omega
    clear low high
    simp only [Pending.completed, List.foldl_cons, List.foldl_nil]
    generalize value : (((b.toNat - 0xF0) * 64 + (x.toNat - 0x80)) * 64 + (y.toNat - 0x80)) * 64 +
      (z.toNat - 0x80) = n
    have whole : n < 0xD800 ∨ 0xDFFF < n ∧ n < 0x110000 := by omega
    have shown : (Char.ofNat n).toNat = n := toNat_ofNat whole
    rw [encodeChar_four (by omega), shown, byte_eq (b := b) (by omega),
      byte_eq (b := x) (by omega), byte_eq (b := y) (by omega), byte_eq (b := z) (by omega)]

theorem toNat_continuation (n : Nat) : (UInt8.ofNat (n % 64 + 0x80)).toNat = n % 64 + 0x80 :=
  toNat_byte (by omega)

theorem continues_continuation (n : Nat) : Continues (UInt8.ofNat (n % 64 + 0x80)) := by
  rw [Continues, toNat_continuation]
  omega

theorem encodeChar_leads (above : 0x7F < c.toNat) :
    ∃ b p tail, String.utf8EncodeChar c = b :: tail ∧ Leads b p ∧ p.Completes tail ∧
      p.completed tail = c.toNat := by
  have valid := toNat_valid c
  by_cases two : c.toNat ≤ 0x7FF
  · refine ⟨_, _, _, encodeChar_two above two, .two ?_ ?_, ⟨rfl, ?_, ?_⟩, ?_⟩
    · rw [toNat_byte (by omega)]
      omega
    · rw [toNat_byte (by omega)]
      omega
    · rintro b same
      cases same
      exact continues_continuation _
    · rintro b ⟨⟩
    · simp only [Pending.completed, List.foldl_cons, List.foldl_nil, toNat_continuation]
      rw [toNat_byte (by omega)]
      omega
  by_cases three : c.toNat ≤ 0xFFFF
  · have first : (UInt8.ofNat (c.toNat / 4096 + 0xE0)).toNat = c.toNat / 4096 + 0xE0 :=
      toNat_byte (by omega)
    refine ⟨_, _, _, encodeChar_three (by omega) three, .three ?_ ?_, ⟨rfl, ?_, ?_⟩, ?_⟩
    · omega
    · omega
    · rintro b same
      cases same
      simp only [Pending.Admits, apply_ite UInt8.toNat, UInt8.reduceToNat, first,
        toNat_continuation]
      constructor <;> split <;> omega
    · intro b member
      rw [List.mem_singleton.mp member]
      exact continues_continuation _
    · simp only [Pending.completed, List.foldl_cons, List.foldl_nil, toNat_continuation, first]
      omega
  · have first : (UInt8.ofNat (c.toNat / 262144 + 0xF0)).toNat = c.toNat / 262144 + 0xF0 :=
      toNat_byte (by omega)
    refine ⟨_, _, _, encodeChar_four (by omega), .four ?_ ?_, ⟨rfl, ?_, ?_⟩, ?_⟩
    · omega
    · omega
    · rintro b same
      cases same
      simp only [Pending.Admits, apply_ite UInt8.toNat, UInt8.reduceToNat, first,
        toNat_continuation]
      constructor <;> split <;> omega
    · intro b member
      rcases List.mem_cons.mp member with rfl | member
      · exact continues_continuation _
      · rw [List.mem_singleton.mp member]
        exact continues_continuation _
    · simp only [Pending.completed, List.foldl_cons, List.foldl_nil, toNat_continuation, first]
      omega

end Spelling

section Text

theorem mapM_eq_some {α β : Type} {f : α → Option β} {items : List α} {results : List β} :
    items.mapM f = some results ↔ items.map f = results.map some := by
  induction items generalizing results with
  | nil => cases results <;> simp [List.mapM_nil]
  | cons a items ih =>
    rw [List.mapM_cons, List.map_cons]
    cases own : f a with
    | none => cases results <;> simp
    | some b =>
      cases results with
      | nil => simp [Option.bind_eq_some_iff]
      | cons c results =>
        simp only [Option.bind_eq_bind, Option.bind_some, Option.bind_eq_some_iff, Option.pure_def,
          Option.some.injEq, List.cons.injEq, List.map_cons, ih]
        constructor
        · rintro ⟨others, same, rfl, rfl⟩
          exact ⟨rfl, same⟩
        · rintro ⟨rfl, same⟩
          exact ⟨results, same, rfl, rfl⟩

theorem decode?_eq_some {data : Bytes} {text : List Char} :
    decode? data = some text ↔ scan none data = text.map some := by
  rw [decode?, mapM_eq_some, List.map_id]

theorem scan_encodeChar (c : Char) (rest : Bytes) :
    scan none (String.utf8EncodeChar c ++ rest) = some c :: scan none rest := by
  by_cases small : c.toNat ≤ 0x7F
  · have same : (UInt8.ofNat c.toNat).toNat = c.toNat := toNat_byte (by omega)
    have first := beginChar_one (b := UInt8.ofNat c.toNat) (by omega)
    rw [encodeChar_one small, List.singleton_append, scan, first, same, Char.ofNat_toNat]
    rfl
  · obtain ⟨b, p, tail, spelled, leads, completes, value⟩ := encodeChar_leads (c := c) (by omega)
    rw [spelled, List.cons_append, scan, beginChar_leads leads, List.nil_append,
      scan_completes leads.missing completes, value, Char.ofNat_toNat]

theorem scan_encode (text : List Char) : scan none (encode text) = text.map some := by
  induction text with
  | nil => rfl
  | cons c text ih =>
    rw [encode, List.flatMap_cons, scan_encodeChar, ← encode, ih]
    rfl

theorem encode_cons (c : Char) (text : List Char) :
    encode (c :: text) = String.utf8EncodeChar c ++ encode text := List.flatMap_cons

theorem encode_of_scan {data : Bytes} {text : List Char} (read : scan none data = text.map some) :
    encode text = data := by
  induction size : data.length using Nat.strongRecOn generalizing data text with
  | ind n ih =>
    cases data with
    | nil =>
      rw [List.map_eq_nil_iff.mp read.symm]
      rfl
    | cons b data =>
      have whole : none ∉ scan none (b :: data) := by
        rw [read]
        simp only [List.mem_map, reduceCtorEq, and_false, exists_false, not_false_eq_true]
      rw [scan] at read whole
      rcases beginChar_cases b with small | ⟨p, leads⟩ | neither
      · rw [beginChar_one small, List.singleton_append] at read
        obtain ⟨c, later, rfl, same, rest⟩ := List.map_eq_cons_iff.mp read.symm
        cases Option.some.inj same
        have shown : (Char.ofNat b.toNat).toNat = b.toNat := toNat_ofNat (.inl (by omega))
        rw [encode_cons, encodeChar_one (by omega), shown, UInt8.ofNat_toNat,
          ih data.length (by rw [← size]; exact Nat.lt_succ_self _) rest.symm rfl,
          List.singleton_append]
      · rw [beginChar_leads leads, List.nil_append] at read whole
        rcases scan_pending leads.missing data with ⟨tail, others, rfl, completes⟩ | fault
        · rw [scan_completes leads.missing completes] at read
          obtain ⟨c, later, rfl, same, rest⟩ := List.map_eq_cons_iff.mp read.symm
          cases Option.some.inj same
          have shorter : others.length < n := by
            rw [← size, List.length_cons, List.length_append]
            omega
          rw [encode_cons, encodeChar_completed leads completes,
            ih others.length shorter rest.symm rfl, List.cons_append]
        · exact absurd fault whole
      · rw [neither] at whole
        exact absurd List.mem_cons_self whole

/-- Bytes are read as a text exactly when they are what the text is written as. -/
theorem decode?_eq_some_iff {data : Bytes} {text : List Char} :
    decode? data = some text ↔ data = encode text := by
  rw [decode?_eq_some]
  constructor
  · exact fun read => (encode_of_scan read).symm
  · rintro rfl
    exact scan_encode text

end Text

section Lines

variable {c : Char}

theorem Leads.low {b : UInt8} {p : Pending} (leads : Leads b p) :
    0x80 ≤ b.toNat ∧ 0x80 ≤ p.low.toNat := by
  cases leads with
  | two above below => exact ⟨by omega, Nat.le_refl _⟩
  | three above below =>
    refine ⟨by omega, ?_⟩
    simp only [apply_ite UInt8.toNat, UInt8.reduceToNat]
    split <;> omega
  | four above below =>
    refine ⟨by omega, ?_⟩
    simp only [apply_ite UInt8.toNat, UInt8.reduceToNat]
    split <;> omega

/-- A character of more than one byte is spelled without the bytes that are characters. -/
theorem encodeChar_high (above : 0x7F < c.toNat) {b : UInt8}
    (member : b ∈ String.utf8EncodeChar c) : 0x80 ≤ b.toNat := by
  obtain ⟨first, p, tail, spelled, leads, completes, -⟩ := encodeChar_leads above
  rw [spelled, List.mem_cons] at member
  rcases member with rfl | later
  · exact leads.low.1
  cases tail with
  | nil => cases later
  | cons d tail =>
    rcases List.mem_cons.mp later with rfl | later
    · exact Nat.le_trans leads.low.2 (completes.first b rfl).1
    · exact (completes.later b later).1

theorem feed_in_encodeChar (member : 10 ∈ String.utf8EncodeChar c) : c = '\n' := by
  by_cases small : c.toNat ≤ 0x7F
  · rw [encodeChar_one small, List.mem_singleton] at member
    have same := congrArg UInt8.toNat member
    rw [toNat_byte (by omega)] at same
    exact Char.toNat_inj.mp same.symm
  · have high : 0x80 ≤ 10 := encodeChar_high (by omega) member
    omega

theorem feed_not_in_encode {line : List Char} (one : '\n' ∉ line) : 10 ∉ encode line := by
  intro member
  obtain ⟨c, inside, own⟩ := List.mem_flatMap.mp member
  exact one (feed_in_encodeChar own ▸ inside)

theorem encode_next (line rest : List Char) :
    encode (line ++ '\n' :: rest) = encode line ++ 10 :: encode rest := List.flatMap_append

theorem encode_ne_nil {text : List Char} (nonempty : text ≠ []) : encode text ≠ [] :=
  fun none => nonempty (encode_injective none)

theorem lines_encode (text : List Char) :
    lines 10 (encode text) = (lines '\n' text).map encode := by
  induction text using line_induction '\n' with
  | last line one =>
    by_cases empty : line = []
    · rw [empty]
      rfl
    · rw [lines_last one empty, lines_last (feed_not_in_encode one) (encode_ne_nil empty),
        List.map_singleton]
  | next line rest one ih =>
    have spelled : encode (line ++ ['\n']) = encode line ++ [10] := encode_next line []
    rw [encode_next, lines_next (feed_not_in_encode one), ih, lines_next one, List.map_cons,
      spelled]

theorem mapM_decode? {datas : List Bytes} {texts : List (List Char)} :
    datas.mapM decode? = some texts ↔ datas = texts.map encode := by
  rw [mapM_eq_some]
  induction datas generalizing texts with
  | nil => cases texts <;> simp only [List.map_nil, List.map_cons, reduceCtorEq]
  | cons data datas ih =>
    cases texts with
    | nil => simp only [List.map_nil, List.map_cons, reduceCtorEq]
    | cons text texts =>
      rw [List.map_cons, List.map_cons, List.map_cons, List.cons.injEq, List.cons.injEq,
        decode?_eq_some_iff, ih]

theorem encode_flatten (texts : List (List Char)) :
    encode texts.flatten = (texts.map encode).flatten := by
  induction texts with
  | nil => rfl
  | cons text texts ih =>
    rw [List.flatten_cons, List.map_cons, List.flatten_cons, ← ih]
    exact List.flatMap_append

end Lines

end StructuredLog.Text
