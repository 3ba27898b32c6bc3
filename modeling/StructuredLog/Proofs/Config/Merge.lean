import StructuredLog.Config.Merge
import StructuredLog.Proofs.Json.Structure

/-!
What a merge leaves on a path of keys. Two objects meet key by key; so a scalar of the side that has
precedence stays where it is, and where one side leaves a path open the other side alone decides
what stands there. Nothing else comes to stand on a path.
-/

namespace StructuredLog.Config

open Json (Value Members)

def at? : List String → Value → Option Value
  | [], v => some v
  | key :: path, v => (v.member? key).bind (at? path)

def joined (overwrite : Bool) : Option Value → Option Value → Option Value
  | some old, some v => some (mergeValue overwrite old v)
  | none, some v => some v
  | old, none => old

theorem get?_mergeMembers (overwrite : Bool) (target : Members) {source : Members}
    (distinct : (Table.keys source).Nodup) (key : String) :
    Table.get? key (mergeMembers overwrite target source) =
      joined overwrite (Table.get? key target) (Table.get? key source) := by
  induction source generalizing target with
  | nil =>
    rw [mergeMembers, Table.get?]
    cases Table.get? key target <;> rfl
  | cons entry rest ih =>
    rcases entry with ⟨k, v⟩
    simp only [Table.keys, List.map_cons, List.nodup_cons] at distinct
    rw [mergeMembers, ih _ distinct.2]
    by_cases same : k = key
    · subst same
      rw [Table.get?_put_self, Table.get?_eq_none distinct.1]
      simp only [Table.get?, ↓reduceIte]
      cases Table.get? k target <;> rfl
    · rw [Table.get?_put_other _ _ (fun equal => same equal.symm)]
      simp only [Table.get?, same, ↓reduceIte]

theorem member?_merge (overwrite : Bool) (target : Members) {source : Members}
    (distinct : (Value.obj source).Distinct) (key : String) :
    (mergeValue overwrite (.obj target) (.obj source)).member? key =
      joined overwrite (Table.get? key target) (Table.get? key source) := by
  simp only [mergeValue, Value.member?]
  exact get?_mergeMembers overwrite target distinct.keys key

theorem distinct_of_get? {members : Members} (distinct : (Value.obj members).Distinct)
    {key : String} {v : Value} (found : Table.get? key members = some v) : v.Distinct :=
  distinct.members (key, v) (Table.mem_of_get? found)

theorem at?_cons {key : String} {path : List String} {v w : Value}
    (found : at? (key :: path) v = some w) :
    ∃ members child, v = .obj members ∧ Table.get? key members = some child ∧
      at? path child = some w := by
  obtain ⟨child, member, below⟩ := Option.bind_eq_some_iff.mp found
  cases v with
  | obj members => exact ⟨members, child, rfl, member, below⟩
  | _ => cases member

theorem at?_obj {key : String} {path : List String} {members : Members} {child : Value}
    (found : Table.get? key members = some child) :
    at? (key :: path) (.obj members) = at? path child := by
  rw [at?, Value.member?, found]
  rfl

theorem merge_scalar (overwrite : Bool) {target source : Value}
    (scalar : target.isScalar = true ∨ source.isScalar = true) :
    mergeValue overwrite target source = if overwrite then source else target := by
  cases source <;> cases target <;> first | rfl | cases scalar <;> contradiction

theorem at?_meet (overwrite : Bool) {target source : Value} (distinct : source.Distinct)
    {path : List String} {v w : Value} (own : at? path target = some v)
    (other : at? path source = some w) :
    at? path (mergeValue overwrite target source) = some (mergeValue overwrite v w) := by
  induction path generalizing target source with
  | nil =>
    cases own
    cases other
    rfl
  | cons key path ih =>
    obtain ⟨members, child, rfl, here, below⟩ := at?_cons own
    obtain ⟨others, incoming, rfl, there, beneath⟩ := at?_cons other
    rw [at?, member?_merge overwrite members distinct, here, there]
    exact ih (distinct_of_get? distinct there) below beneath

theorem at?_target_alone {target source : Value} (distinct : source.Distinct) {path : List String}
    {v : Value} (own : at? path target = some v) (other : at? path source = none) :
    at? path (mergeValue false target source) = some v := by
  induction path generalizing target source with
  | nil => cases other
  | cons key path ih =>
    obtain ⟨members, child, rfl, here, below⟩ := at?_cons own
    cases source with
    | obj others =>
      rw [at?, member?_merge false members distinct, here]
      cases there : Table.get? key others with
      | none => exact below
      | some incoming =>
        rw [at?_obj there] at other
        exact ih (distinct_of_get? distinct there) below other
    | _ => exact own

theorem at?_source_alone {target source : Value} (distinct : source.Distinct) {path : List String}
    {w : Value} (own : at? path target = none) (other : at? path source = some w) :
    at? path (mergeValue true target source) = some w := by
  induction path generalizing target source with
  | nil => cases own
  | cons key path ih =>
    obtain ⟨others, incoming, rfl, there, beneath⟩ := at?_cons other
    cases target with
    | obj members =>
      rw [at?, member?_merge true members distinct, there]
      cases here : Table.get? key members with
      | none => exact beneath
      | some child =>
        rw [at?_obj here] at own
        exact ih (distinct_of_get? distinct there) own beneath
    | _ => exact other

theorem at?_target (target : Value) {source : Value} (distinct : source.Distinct)
    {path : List String} {v : Value} (scalar : v.isScalar = true)
    (found : at? path target = some v) :
    at? path (mergeValue false target source) = some v := by
  cases other : at? path source with
  | none => exact at?_target_alone distinct found other
  | some w =>
    rw [at?_meet false distinct found other, merge_scalar false (.inl scalar)]
    rfl

theorem at?_source (target : Value) {source : Value} (distinct : source.Distinct)
    {path : List String} {v : Value} (scalar : v.isScalar = true)
    (found : at? path source = some v) :
    at? path (mergeValue true target source) = some v := by
  cases own : at? path target with
  | none => exact at?_source_alone distinct own found
  | some w =>
    rw [at?_meet true distinct own found, merge_scalar true (.inr scalar)]
    rfl

/-- A document leaves a path open: there are objects on the way, and nothing in the end. -/
def LeavesOpen : List String → Value → Prop
  | key :: path, .obj members => ∀ v, Table.get? key members = some v → LeavesOpen path v
  | _, _ => False

theorem LeavesOpen.cons {key : String} {path : List String} {v : Value}
    (leaves : LeavesOpen (key :: path) v) :
    ∃ members, v = .obj members ∧ ∀ w, Table.get? key members = some w → LeavesOpen path w := by
  cases v with
  | obj members => exact ⟨members, rfl, leaves⟩
  | _ => cases leaves

theorem LeavesOpen.at? {path : List String} {v : Value} (leaves : LeavesOpen path v) :
    at? path v = none := by
  induction path generalizing v with
  | nil => cases leaves
  | cons key path ih =>
    obtain ⟨members, rfl, below⟩ := leaves.cons
    rw [Config.at?, Value.member?]
    cases same : Table.get? key members with
    | none => rfl
    | some child => exact ih (below child same)

theorem at?_open_source (target : Value) {source : Value} (distinct : source.Distinct)
    {path : List String} (leaves : LeavesOpen path source) :
    at? path (mergeValue true target source) = at? path target := by
  induction path generalizing target source with
  | nil => cases leaves
  | cons key path ih =>
    have none := leaves.at?
    obtain ⟨others, rfl, below⟩ := leaves.cons
    cases target with
    | obj members =>
      rw [at?, member?_merge true members distinct]
      cases same : Table.get? key others with
      | none =>
        rw [at?, Value.member?]
        cases Table.get? key members <;> rfl
      | some other =>
        cases old : Table.get? key members with
        | none =>
          rw [at?, Value.member?, old]
          exact (below other same).at?
        | some child =>
          rw [at?_obj old]
          exact ih _ (distinct_of_get? distinct same) (below other same)
    | _ => exact none

theorem at?_open_target (target : Value) {source : Value} (distinct : source.Distinct)
    {path : List String} (leaves : LeavesOpen path target) :
    at? path (mergeValue false target source) = at? path source := by
  induction path generalizing target source with
  | nil => cases leaves
  | cons key path ih =>
    have none := leaves.at?
    obtain ⟨members, rfl, below⟩ := leaves.cons
    cases source with
    | obj others =>
      rw [at?, member?_merge false members distinct]
      cases old : Table.get? key members with
      | none =>
        rw [at?, Value.member?]
        cases Table.get? key others <;> rfl
      | some child =>
        cases same : Table.get? key others with
        | none =>
          rw [at?, Value.member?, same]
          exact (below child old).at?
        | some other =>
          rw [at?_obj same]
          exact ih _ (distinct_of_get? distinct same) (below child old)
    | _ => exact none

/-- A merge takes every scalar from where it stands in one of the two. -/
theorem at?_merged (overwrite : Bool) (target : Value) {source : Value} (distinct : source.Distinct)
    {path : List String} {v : Value} (scalar : v.isScalar = true)
    (found : at? path (mergeValue overwrite target source) = some v) :
    at? path target = some v ∨ at? path source = some v := by
  induction path generalizing target source with
  | nil =>
    cases found
    cases source <;> cases target <;> cases overwrite <;>
      first | exact .inl rfl | exact .inr rfl | cases scalar
  | cons key path ih =>
    -- Only two objects are merged key by key; otherwise one of the two stays as it is.
    by_cases both : ∃ members others, target = .obj members ∧ source = .obj others
    · obtain ⟨members, others, rfl, rfl⟩ := both
      rw [at?, member?_merge overwrite members distinct] at found
      cases old : Table.get? key members with
      | none =>
        cases same : Table.get? key others with
        | none =>
          rw [old, same] at found
          cases found
        | some other =>
          rw [old, same] at found
          exact .inr ((at?_obj same).trans found)
      | some child =>
        cases same : Table.get? key others with
        | none =>
          rw [old, same] at found
          exact .inl ((at?_obj old).trans found)
        | some other =>
          rw [old, same] at found
          rw [at?_obj old, at?_obj same]
          exact ih _ (distinct_of_get? distinct same) found
    · have one : mergeValue overwrite target source = target ∨
          mergeValue overwrite target source = source ∨
            ∃ items, mergeValue overwrite target source = .arr items := by
        cases source <;> cases target <;> cases overwrite <;>
          first
            | exact .inl rfl
            | exact .inr (.inl rfl)
            | exact .inr (.inr ⟨_, rfl⟩)
            | exact absurd ⟨_, _, rfl, rfl⟩ both
      rcases one with same | same | ⟨items, same⟩
      · exact .inl (same ▸ found)
      · exact .inr (same ▸ found)
      · rw [same] at found
        cases found

theorem mem_mergeItems {target source : List Value} {v : Value}
    (member : v ∈ mergeItems target source) : v ∈ target ∨ v ∈ source := by
  induction source generalizing target with
  | nil => exact .inl member
  | cons w rest ih =>
    rw [mergeItems] at member
    rcases ih member with old | new
    · split at old
      · exact .inl old
      · rcases List.mem_append.mp old with old | own
        · exact .inl old
        · rw [List.mem_singleton.mp own]
          exact .inr List.mem_cons_self
    · exact .inr (List.mem_cons_of_mem w new)

theorem distinct_put {members : Members} (distinct : (Value.obj members).Distinct) (key : String)
    {v : Value} (own : v.Distinct) : (Value.obj (Table.put key v members)).Distinct := by
  refine .obj (Table.nodup_keys_put key v members distinct.keys) ?_
  intro entry member
  rcases Table.mem_put member with same | old
  · rw [same]
    exact own
  · exact distinct.members entry old

theorem merge_distinct (overwrite : Bool) {target source : Value} (own : target.Distinct)
    (distinct : source.Distinct) : (mergeValue overwrite target source).Distinct := by
  induction source using Value.structural generalizing target with
  | null => cases overwrite <;> assumption
  | bool b => cases overwrite <;> assumption
  | num n => cases overwrite <;> assumption
  | str s => cases overwrite <;> assumption
  | arr source _ =>
    cases target with
    | arr items =>
      apply Value.Keyed.arr
      intro v member
      rcases mem_mergeItems member with old | new
      · exact own.items v old
      · exact distinct.items v new
    | _ => cases overwrite <;> assumption
  | obj source ih =>
    cases target with
    | obj members =>
      rw [mergeValue]
      have each := distinct.members
      clear distinct
      induction source generalizing members with
      | nil => exact own
      | cons entry rest later =>
        rcases entry with ⟨key, v⟩
        rw [List.forall_mem_cons] at each ih
        rw [mergeMembers]
        apply later ih.2 _ ?_ each.2
        apply distinct_put own
        split
        · next old found => exact ih.1 (distinct_of_get? own found) each.1
        · exact each.1
    | _ => cases overwrite <;> assumption

theorem mergeMembers_new (overwrite : Bool) {target source : Members}
    (distinct : (Table.keys source).Nodup)
    (new : ∀ key ∈ Table.keys source, key ∉ Table.keys target) :
    mergeMembers overwrite target source = target ++ source := by
  induction source generalizing target with
  | nil => rw [mergeMembers, List.append_nil]
  | cons entry rest ih =>
    rcases entry with ⟨key, v⟩
    simp only [Table.keys, List.map_cons, List.nodup_cons, List.forall_mem_cons] at distinct new
    rw [mergeMembers, Table.get?_eq_none new.1, Table.put_absent _ _ _ new.1, ih distinct.2]
    · rw [List.append_assoc, List.singleton_append]
    · intro k member
      simp only [Table.keys, List.map_append, List.mem_append, List.map_cons, List.map_nil,
        List.mem_singleton, not_or]
      refine ⟨new.2 k member, ?_⟩
      rintro rfl
      exact distinct.1 member

end StructuredLog.Config
