/-!
Ordered tables: values under distinct keys, in the order in which the keys were first put in.
Putting a value under a present key keeps the key's place.
-/

namespace StructuredLog

abbrev Table (α : Type) := List (String × α)

namespace Table

variable {α : Type}

def keys (table : Table α) : List String := table.map Prod.fst

def get? (key : String) : Table α → Option α
  | [] => none
  | (k, v) :: rest => if k = key then some v else get? key rest

def has (key : String) (table : Table α) : Bool := (get? key table).isSome

/-- Replaces the value under a present key in its place, or adds a new key at the end. -/
def put (key : String) (value : α) : Table α → Table α
  | [] => [(key, value)]
  | (k, v) :: rest => if k = key then (k, value) :: rest else (k, v) :: put key value rest

def erase (key : String) : Table α → Table α
  | [] => []
  | (k, v) :: rest => if k = key then rest else (k, v) :: erase key rest

def split? (key : String) : Table α → Option (Table α × α × Table α)
  | [] => none
  | (k, v) :: rest =>
      if k = key then some ([], v, rest)
      else (split? key rest).map fun (before, value, after) => ((k, v) :: before, value, after)

def ofList (entries : List (String × α)) : Table α :=
  entries.foldl (fun table (key, value) => put key value table) []

theorem get?_put_self (key : String) (value : α) (table : Table α) :
    get? key (put key value table) = some value := by
  induction table with
  | nil => simp only [put, get?, ↓reduceIte]
  | cons entry rest ih =>
    rcases entry with ⟨k, v⟩
    by_cases same : k = key
    · simp only [put, same, ↓reduceIte, get?]
    · simp only [put, same, ↓reduceIte, get?, ih]

theorem get?_put_other {key other : String} (value : α) (table : Table α) (differ : other ≠ key) :
    get? other (put key value table) = get? other table := by
  induction table with
  | nil => simp only [put, get?, differ.symm, ↓reduceIte]
  | cons entry rest ih =>
    rcases entry with ⟨k, v⟩
    by_cases same : k = key
    · subst same
      simp only [put, ↓reduceIte, get?, differ.symm]
    · by_cases hit : k = other
      · subst hit
        simp only [put, same, ↓reduceIte, get?]
      · simp only [put, same, ↓reduceIte, get?, hit, ih]

theorem keys_put (key : String) (value : α) (table : Table α) :
    keys (put key value table) = if key ∈ keys table then keys table else keys table ++ [key] := by
  induction table with
  | nil => simp [put, keys]
  | cons entry rest ih =>
    rcases entry with ⟨k, v⟩
    by_cases same : k = key
    · simp [put, same, keys]
    · have differ : key ≠ k := fun equal => same equal.symm
      simp only [keys] at ih
      by_cases present : key ∈ rest.map Prod.fst
      · simp [put, same, keys, differ, ih, present]
      · simp [put, same, keys, differ, ih, present]

theorem has_eq_true (key : String) (table : Table α) : has key table = true ↔ key ∈ keys table := by
  induction table with
  | nil => simp [has, get?, keys]
  | cons entry rest ih =>
    rcases entry with ⟨k, v⟩
    by_cases same : k = key
    · simp [has, get?, same, keys]
    · have differ : key ≠ k := fun equal => same equal.symm
      simp only [has, keys] at ih
      simp [has, get?, same, keys, differ, ih]

theorem mem_keys_iff {key : String} {table : Table α} :
    key ∈ keys table ↔ ∃ value, get? key table = some value := by
  rw [← has_eq_true, has, Option.isSome_iff_exists]

theorem get?_eq_none {key : String} {table : Table α} (absent : key ∉ keys table) :
    get? key table = none := by
  rw [← has_eq_true, has, Bool.not_eq_true] at absent
  exact Option.isNone_iff_eq_none.mp (Option.isSome_eq_false_iff.mp absent)

theorem mem_of_get? {key : String} {value : α} {table : Table α}
    (found : get? key table = some value) : (key, value) ∈ table := by
  induction table with
  | nil => cases found
  | cons entry rest ih =>
    rcases entry with ⟨k, v⟩
    by_cases same : k = key
    · subst same
      simp only [get?, ↓reduceIte, Option.some.injEq] at found
      rw [found]
      exact List.mem_cons_self
    · simp only [get?, same, ↓reduceIte] at found
      exact List.mem_cons_of_mem _ (ih found)

theorem put_get? {key : String} {value : α} {table : Table α}
    (found : get? key table = some value) : put key value table = table := by
  induction table with
  | nil => cases found
  | cons entry rest ih =>
    rcases entry with ⟨k, v⟩
    by_cases same : k = key
    · subst same
      simp only [get?, ↓reduceIte, Option.some.injEq] at found
      simp only [put, found, ↓reduceIte]
    · simp only [get?, same, ↓reduceIte] at found
      simp only [put, same, ↓reduceIte, ih found]

theorem put_put (key : String) (old new : α) (table : Table α) :
    put key new (put key old table) = put key new table := by
  induction table with
  | nil => simp only [put, ↓reduceIte]
  | cons entry rest ih =>
    rcases entry with ⟨k, v⟩
    by_cases same : k = key
    · simp only [put, same, ↓reduceIte]
    · simp only [put, same, ↓reduceIte, ih]

theorem put_middle {key : String} {before : Table α} (absent : key ∉ keys before) (old new : α)
    (after : Table α) :
    put key new (before ++ (key, old) :: after) = before ++ (key, new) :: after := by
  induction before with
  | nil => simp only [List.nil_append, put, ↓reduceIte]
  | cons entry rest ih =>
    rcases entry with ⟨k, v⟩
    simp only [keys, List.map_cons, List.mem_cons, not_or] at absent
    have differ : k ≠ key := fun same => absent.1 same.symm
    simp only [List.cons_append, put, differ, ↓reduceIte, ih absent.2]

theorem put_absent (key : String) (value : α) (table : Table α) (absent : key ∉ keys table) :
    put key value table = table ++ [(key, value)] := by
  induction table with
  | nil => rfl
  | cons entry rest ih =>
    rcases entry with ⟨k, v⟩
    simp only [keys, List.map_cons, List.mem_cons, not_or] at absent
    have differ : k ≠ key := fun same => absent.1 same.symm
    simp only [put, differ, ↓reduceIte, List.cons_append]
    rw [ih absent.2]

theorem erase_sublist (key : String) (table : Table α) : (erase key table).Sublist table := by
  induction table with
  | nil => exact List.Sublist.refl _
  | cons entry rest ih =>
    rcases entry with ⟨k, v⟩
    by_cases same : k = key
    · simp only [erase, same, ↓reduceIte]
      exact List.sublist_cons_self _ _
    · simp only [erase, same, ↓reduceIte]
      exact ih.cons_cons _

/-- Under distinct keys at most one entry goes, so that erasing is keeping all others. -/
theorem erase_eq_filter (key : String) (table : Table α) (distinct : (keys table).Nodup) :
    erase key table = table.filter fun entry => !(entry.1 == key) := by
  induction table with
  | nil => rfl
  | cons entry rest ih =>
    rcases entry with ⟨k, v⟩
    simp only [keys, List.map_cons, List.nodup_cons] at distinct
    by_cases same : k = key
    · subst same
      have others : ∀ entry ∈ rest, (!(entry.1 == k)) = true := by
        intro entry member
        rw [Bool.not_eq_true', beq_eq_false_iff_ne]
        intro equal
        exact distinct.1 (equal ▸ List.mem_map_of_mem member)
      simp [erase, List.filter_eq_self.mpr others]
    · simp [erase, same, ih distinct.2]

theorem nodup_keys_put (key : String) (value : α) (table : Table α)
    (distinct : (keys table).Nodup) :
    (keys (put key value table)).Nodup := by
  rw [keys_put]
  split
  · exact distinct
  · next absent =>
    rw [List.nodup_append]
    refine ⟨distinct, by simp, ?_⟩
    intro a ha b hb same
    rw [List.mem_singleton] at hb
    subst hb
    exact absent (same ▸ ha)

theorem mem_put {key : String} {value : α} {table : Table α} {entry : String × α}
    (member : entry ∈ put key value table) : entry = (key, value) ∨ entry ∈ table := by
  induction table with
  | nil => exact .inl (List.mem_singleton.mp member)
  | cons first rest ih =>
    rcases first with ⟨k, v⟩
    by_cases same : k = key
    · simp only [put, same, ↓reduceIte, List.mem_cons] at member
      rcases member with here | later
      · exact .inl here
      · exact .inr (List.mem_cons_of_mem _ later)
    · simp only [put, same, ↓reduceIte, List.mem_cons] at member
      rcases member with rfl | later
      · exact .inr List.mem_cons_self
      · exact (ih later).imp_right (List.mem_cons_of_mem _)

theorem length_put_le (key : String) (value : α) (table : Table α) :
    (put key value table).length ≤ table.length + 1 := by
  have same : (put key value table).length = (keys (put key value table)).length := by
    rw [keys, List.length_map]
  rw [same, keys_put]
  split
  · rw [keys, List.length_map]
    omega
  · have one : (keys table ++ [key]).length = table.length + 1 := by
      rw [List.length_append, keys, List.length_map, List.length_singleton]
    exact Nat.le_of_eq one

theorem get?_of_mem {key : String} {value : α} {table : Table α} (distinct : (keys table).Nodup)
    (member : (key, value) ∈ table) : get? key table = some value := by
  induction table with
  | nil => cases member
  | cons entry rest ih =>
    rcases entry with ⟨k, v⟩
    simp only [keys, List.map_cons, List.nodup_cons] at distinct
    rcases List.mem_cons.mp member with here | later
    · cases here
      simp only [get?, ↓reduceIte]
    · have differ : k ≠ key := by
        rintro rfl
        exact distinct.1 (List.mem_map_of_mem later)
      simp only [get?, differ, ↓reduceIte]
      exact ih distinct.2 later

theorem get?_append (key : String) (first second : Table α) :
    get? key (first ++ second) = (get? key first).or (get? key second) := by
  induction first with
  | nil => rfl
  | cons entry rest ih =>
    rcases entry with ⟨k, v⟩
    by_cases same : k = key
    · simp only [List.cons_append, get?, same, ↓reduceIte, Option.some_or]
    · simp only [List.cons_append, get?, same, ↓reduceIte, ih]

theorem split?_some {key : String} {table before after : Table α} {value : α}
    (found : split? key table = some (before, value, after)) :
    table = before ++ (key, value) :: after := by
  induction table generalizing before with
  | nil => cases found
  | cons entry rest ih =>
    rcases entry with ⟨k, v⟩
    by_cases same : k = key
    · simp only [split?, same, ↓reduceIte, Option.some.injEq, Prod.mk.injEq] at found
      obtain ⟨rfl, rfl, rfl⟩ := found
      rw [same]
      rfl
    · simp only [split?, same, ↓reduceIte] at found
      obtain ⟨⟨front, own, back⟩, inner, whole⟩ := Option.map_eq_some_iff.mp found
      cases whole
      rw [ih inner]
      rfl

theorem split?_none {key : String} {table : Table α} (missing : split? key table = none) :
    key ∉ keys table := by
  induction table with
  | nil => exact List.not_mem_nil
  | cons entry rest ih =>
    rcases entry with ⟨k, v⟩
    by_cases same : k = key
    · simp only [split?, same, ↓reduceIte] at missing
      cases missing
    · simp only [split?, same, ↓reduceIte] at missing
      have differ : key ≠ k := fun equal => same equal.symm
      exact List.not_mem_cons_of_ne_of_not_mem differ (ih (Option.map_eq_none_iff.mp missing))

end Table

end StructuredLog
