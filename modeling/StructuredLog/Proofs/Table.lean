import Mathlib.Data.List.Induction
import StructuredLog.Table

/-!
Tables of entries that are put in one after another. A key stands where it came first, with the
value that came last.
-/

namespace StructuredLog.Table

variable {α : Type}

/-- Every key of the entries once, in the order in which they first come, and under each key the
value that is found from the end. -/
structure Collects (entries : List (String × α)) (table : Table α) : Prop where
  keys : Table.keys table = (Table.keys entries).eraseDups
  last : ∀ key, get? key table = get? key entries.reverse

theorem ofList_append (entries : List (String × α)) (key : String) (value : α) :
    ofList (entries ++ [(key, value)]) = put key value (ofList entries) := by
  rw [ofList, List.foldl_append]
  rfl

theorem nodup_ofList (entries : List (String × α)) : (keys (ofList entries)).Nodup := by
  induction entries using List.reverseRecOn with
  | nil => exact List.nodup_nil
  | append_singleton entries entry ih =>
    rw [ofList_append]
    exact nodup_keys_put _ _ _ ih

theorem keys_ofList (entries : List (String × α)) :
    keys (ofList entries) = (keys entries).eraseDups := by
  induction entries using List.reverseRecOn with
  | nil => rfl
  | append_singleton entries entry ih =>
    have all : keys (entries ++ [entry]) = keys entries ++ [entry.1] := List.map_append
    rw [ofList_append, keys_put, ih, all, List.eraseDups_append]
    by_cases present : entry.1 ∈ keys entries <;>
      simp [List.removeAll, present, List.eraseDups_cons]

theorem get?_ofList (entries : List (String × α)) (key : String) :
    get? key (ofList entries) = get? key entries.reverse := by
  induction entries using List.reverseRecOn with
  | nil => rfl
  | append_singleton entries entry ih =>
    rw [ofList_append, List.reverse_append, List.reverse_singleton, List.singleton_append, get?]
    by_cases same : entry.1 = key
    · rw [if_pos same, ← same, get?_put_self]
    · rw [if_neg same, get?_put_other _ _ fun equal => same equal.symm, ih]

theorem ofList_collects (entries : List (String × α)) : Collects entries (ofList entries) :=
  ⟨keys_ofList entries, get?_ofList entries⟩

theorem eq_of_get? {first second : Table α} (distinct : (keys first).Nodup)
    (order : keys first = keys second) (values : ∀ key, get? key first = get? key second) :
    first = second := by
  induction first generalizing second with
  | nil => exact (List.map_eq_nil_iff.mp order.symm).symm
  | cons entry rest ih =>
    rcases entry with ⟨key, value⟩
    rcases second with _ | ⟨⟨k, v⟩, others⟩
    · cases order
    · simp only [keys, List.map_cons, List.cons.injEq, List.nodup_cons] at order distinct
      obtain ⟨rfl, order⟩ := order
      have here := values key
      simp only [get?, ↓reduceIte, Option.some.injEq] at here
      rw [here, ih distinct.2 order]
      intro k
      by_cases same : key = k
      · subst same
        have absent : key ∉ keys others := fun member => distinct.1 (order.symm ▸ member)
        rw [get?_eq_none distinct.1, get?_eq_none absent]
      · have there := values k
        simpa only [get?, if_neg same] using there

theorem Collects.eq_ofList {entries : List (String × α)} {table : Table α}
    (collects : Collects entries table) : table = ofList entries := by
  have order : Table.keys table = Table.keys (ofList entries) :=
    collects.keys.trans (keys_ofList entries).symm
  refine eq_of_get? (order ▸ nodup_ofList entries) order fun key => ?_
  rw [collects.last, get?_ofList]

theorem Collects.nodup {entries : List (String × α)} {table : Table α}
    (collects : Collects entries table) : (Table.keys table).Nodup := by
  rw [collects.eq_ofList]
  exact nodup_ofList entries

theorem Collects.mem {entries : List (String × α)} {table : Table α}
    (collects : Collects entries table) {entry : String × α} (member : entry ∈ table) :
    entry ∈ entries := by
  have found := get?_of_mem collects.nodup member
  rw [collects.last] at found
  exact List.mem_reverse.mp (mem_of_get? found)

theorem ofList_self {table : Table α} (distinct : (keys table).Nodup) : ofList table = table := by
  induction table using List.reverseRecOn with
  | nil => rfl
  | append_singleton entries entry ih =>
    have all : keys (entries ++ [entry]) = keys entries ++ [entry.1] := List.map_append
    rw [all, List.nodup_append] at distinct
    obtain ⟨before, -, apart⟩ := distinct
    have absent : entry.1 ∉ keys entries := fun member =>
      apart entry.1 member entry.1 List.mem_cons_self rfl
    rw [ofList_append, ih before, put_absent _ _ _ absent]

theorem Collects.self {table : Table α} (distinct : (Table.keys table).Nodup) :
    Collects table table := by
  have collects := ofList_collects table
  rwa [ofList_self distinct] at collects

end StructuredLog.Table
