import Mathlib.Data.List.Perm.Subperm
import StructuredLog.Proofs.Binary64.Value
import StructuredLog.Proofs.Json.Structure

/-!
Equality of documents. Documents are alike when they differ at most in the order of members, at any
depth. Being alike is an equivalence, and where keys are distinct the comparison of documents
decides it.
-/

namespace StructuredLog.Json

/-- Documents that differ at most in the order of members. Numbers are alike within their kind, real
ones by what they stand for. -/
inductive Value.Alike : Value → Value → Prop where
  | null : Alike .null .null
  | bool (b : Bool) : Alike (.bool b) (.bool b)
  | integer (n : Integer) : Alike (.num (.integer n)) (.num (.integer n))
  | real {x y : Real} (value : x.val.value = y.val.value) :
      Alike (.num (.real x)) (.num (.real y))
  | str (s : String) : Alike (.str s) (.str s)
  | arr {xs ys : List Value} (length : xs.length = ys.length)
      (each : ∀ (i : Nat) (v w : Value), xs[i]? = some v → ys[i]? = some w → Alike v w) :
      Alike (.arr xs) (.arr ys)
  | obj {xs ys : Members} (keys : (Table.keys xs).Perm (Table.keys ys))
      (each : ∀ key v w, Table.get? key xs = some v → Table.get? key ys = some w → Alike v w) :
      Alike (.obj xs) (.obj ys)

namespace Value.Alike

theorem refl (v : Value) : v.Alike v := by
  induction v using Value.structural with
  | null => exact .null
  | bool b => exact .bool b
  | num n =>
    cases n with
    | integer n => exact .integer n
    | real x => exact .real rfl
  | str s => exact .str s
  | arr items ih =>
    refine .arr rfl fun i v w own other => ?_
    cases own.symm.trans other
    exact ih v (List.mem_of_getElem? own)
  | obj members ih =>
    refine .obj (.refl _) fun key v w own other => ?_
    cases own.symm.trans other
    exact ih (key, v) (Table.mem_of_get? own)

theorem symm {v w : Value} (alike : v.Alike w) : w.Alike v := by
  induction alike with
  | null => exact .null
  | bool b => exact .bool b
  | integer n => exact .integer n
  | real value => exact .real value.symm
  | str s => exact .str s
  | arr length _ ih => exact .arr length.symm fun i v w own other => ih i w v other own
  | obj keys _ ih => exact .obj keys.symm fun key v w own other => ih key w v other own

theorem trans {u v w : Value} (first : u.Alike v) (second : v.Alike w) : u.Alike w := by
  induction first generalizing w with
  | null | bool | integer | str => exact second
  | real value =>
    cases second with
    | real next => exact .real (value.trans next)
  | @arr xs ys length _ ih =>
    cases second with
    | arr next each =>
      refine .arr (length.trans next) fun i v w own other => ?_
      have place : i < ys.length := length ▸ (List.getElem?_eq_some_iff.mp own).1
      have between : ys[i]? = some ys[i] := List.getElem?_eq_getElem place
      exact ih i v ys[i] own between (each i ys[i] w between other)
  | @obj xs ys keys _ ih =>
    cases second with
    | obj next each =>
      refine .obj (keys.trans next) fun key v w own other => ?_
      have present : key ∈ Table.keys ys := keys.mem_iff.mp (Table.mem_keys_iff.mpr ⟨v, own⟩)
      obtain ⟨middle, between⟩ := Table.mem_keys_iff.mp present
      exact ih key v middle own between (each key middle w between other)

end Value.Alike

theorem sameItems_iff {xs ys : List Value} :
    sameItems xs ys = true ↔
      xs.length = ys.length ∧
        ∀ (i : Nat) (v w : Value), xs[i]? = some v → ys[i]? = some w → v.same w = true := by
  induction xs generalizing ys with
  | nil => cases ys <;> simp [sameItems]
  | cons x xs ih =>
    cases ys with
    | nil => simp [sameItems]
    | cons y ys =>
      rw [sameItems, Bool.and_eq_true, ih, List.length_cons, List.length_cons,
        Nat.add_right_cancel_iff]
      constructor
      · rintro ⟨first, length, each⟩
        refine ⟨length, fun i v w own other => ?_⟩
        cases i with
        | zero =>
          cases own
          cases other
          exact first
        | succ i => exact each i v w own other
      · rintro ⟨length, each⟩
        exact ⟨each 0 x y rfl rfl, length, fun i => each (i + 1)⟩

theorem sameMembers_iff {xs ys : Members} :
    sameMembers xs ys = true ↔
      ∀ entry ∈ xs, ∃ w, Table.get? entry.1 ys = some w ∧ entry.2.same w = true := by
  induction xs with
  | nil => simp [sameMembers]
  | cons entry xs ih =>
    rcases entry with ⟨key, x⟩
    rw [sameMembers, Bool.and_eq_true, ih, List.forall_mem_cons]
    cases Table.get? key ys <;> simp

/-- Objects of the same size whose members are all found in the other have the same keys. -/
theorem sameObject_iff {xs ys : Members} (own : (Table.keys xs).Nodup) :
    (Value.obj xs).same (.obj ys) = true ↔
      (Table.keys xs).Perm (Table.keys ys) ∧
        ∀ key v w, Table.get? key xs = some v → Table.get? key ys = some w → v.same w = true := by
  rw [Value.same, Bool.and_eq_true, beq_iff_eq, sameMembers_iff]
  have lengths (members : Members) : members.length = (Table.keys members).length :=
    (List.length_map Prod.fst).symm
  constructor
  · rintro ⟨length, each⟩
    have included : Table.keys xs ⊆ Table.keys ys := by
      intro key member
      obtain ⟨⟨_, v⟩, entry, rfl⟩ := List.mem_map.mp member
      obtain ⟨w, found, _⟩ := each _ entry
      exact Table.mem_keys_iff.mpr ⟨w, found⟩
    refine ⟨(List.subperm_of_subset own included).perm_of_length_le ?_, ?_⟩
    · rw [← lengths, ← lengths, length]
    · intro key v w found there
      obtain ⟨_, same, equal⟩ := each (key, v) (Table.mem_of_get? found)
      cases same.symm.trans there
      exact equal
  · rintro ⟨keys, each⟩
    refine ⟨by rw [lengths, lengths, keys.length_eq], ?_⟩
    rintro ⟨key, v⟩ entry
    have found := Table.get?_of_mem own entry
    have present : key ∈ Table.keys ys := keys.mem_iff.mp (Table.mem_keys_iff.mpr ⟨v, found⟩)
    obtain ⟨w, there⟩ := Table.mem_keys_iff.mp present
    exact ⟨w, there, each key v w found there⟩

theorem sameNumber_iff {m n : Number} :
    m.same n = true ↔ (Value.num m).Alike (.num n) := by
  cases m with
  | integer m =>
    cases n with
    | integer n =>
      rw [Number.same, decide_eq_true_eq]
      constructor
      · intro equal
        obtain rfl : m = n := by
          cases m
          cases n
          cases equal
          rfl
        exact .integer m
      · rintro ⟨⟩
        rfl
    | real y => exact iff_of_false Bool.false_ne_true nofun
  | real x =>
    cases n with
    | integer n => exact iff_of_false Bool.false_ne_true nofun
    | real y =>
      rw [Number.same, Binary64.sameNumber_iff x.finite y.finite]
      exact ⟨.real, fun | .real value => value⟩

theorem same_iff {v w : Value} (own : v.Distinct) (other : w.Distinct) :
    v.same w = true ↔ v.Alike w := by
  induction v using Value.structural generalizing w with
  | null =>
    cases w with
    | null => exact iff_of_true rfl .null
    | _ => exact iff_of_false Bool.false_ne_true nofun
  | bool b =>
    cases w with
    | bool c =>
      rw [Value.same, beq_iff_eq]
      exact ⟨fun equal => equal ▸ .bool b, fun | .bool _ => rfl⟩
    | _ => exact iff_of_false Bool.false_ne_true nofun
  | num m =>
    cases w with
    | num n =>
      rw [Value.same]
      exact sameNumber_iff
    | _ => exact iff_of_false Bool.false_ne_true nofun
  | str s =>
    cases w with
    | str t =>
      rw [Value.same, beq_iff_eq]
      exact ⟨fun equal => equal ▸ .str s, fun | .str _ => rfl⟩
    | _ => exact iff_of_false Bool.false_ne_true nofun
  | arr xs ih =>
    cases w with
    | arr ys =>
      have items (i : Nat) (v w : Value) (here : xs[i]? = some v) (there : ys[i]? = some w) :
          v.same w = true ↔ v.Alike w :=
        ih v (List.mem_of_getElem? here) (own.items v (List.mem_of_getElem? here))
          (other.items w (List.mem_of_getElem? there))
      rw [Value.same, sameItems_iff]
      constructor
      · rintro ⟨length, each⟩
        exact .arr length fun i v w here there =>
          (items i v w here there).mp (each i v w here there)
      · intro alike
        cases alike with
        | arr length each =>
          exact ⟨length, fun i v w here there =>
            (items i v w here there).mpr (each i v w here there)⟩
    | _ => exact iff_of_false Bool.false_ne_true nofun
  | obj xs ih =>
    cases w with
    | obj ys =>
      have members (key : String) (v w : Value) (here : Table.get? key xs = some v)
          (there : Table.get? key ys = some w) : v.same w = true ↔ v.Alike w :=
        ih (key, v) (Table.mem_of_get? here) (own.members (key, v) (Table.mem_of_get? here))
          (other.members (key, w) (Table.mem_of_get? there))
      rw [sameObject_iff own.keys]
      constructor
      · rintro ⟨keys, each⟩
        exact .obj keys fun key v w here there =>
          (members key v w here there).mp (each key v w here there)
      · intro alike
        cases alike with
        | obj keys each =>
          exact ⟨keys, fun key v w here there =>
            (members key v w here there).mpr (each key v w here there)⟩
    | _ => exact iff_of_false Bool.false_ne_true nofun

theorem same_self {v : Value} (distinct : v.Distinct) : v.same v = true :=
  (same_iff distinct distinct).mpr (.refl v)

end StructuredLog.Json
