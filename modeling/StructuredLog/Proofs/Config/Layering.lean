import StructuredLog.Proofs.Config.Items

/-!
What a merge makes of two objects at every depth. Wherever objects of both meet, their members are
put together in order; without precedence the result extends its target, and with precedence the
source comes over it.
-/

namespace StructuredLog.Config

open Json (Value Members)

theorem at?_append (lead path : List String) (v : Value) :
    at? (lead ++ path) v = (at? lead v).bind (at? path) := by
  induction lead generalizing v with
  | nil => rfl
  | cons key lead ih =>
    rw [List.cons_append, at?, at?, Option.bind_assoc]
    exact congrArg (Option.bind _) (funext ih)

theorem at?_distinct {path : List String} {v w : Value} (distinct : v.Distinct)
    (found : at? path v = some w) : w.Distinct := by
  induction path generalizing v with
  | nil =>
    cases found
    exact distinct
  | cons key path ih =>
    obtain ⟨members, child, rfl, under, below⟩ := at?_cons found
    exact ih (distinct_of_get? distinct under) below

theorem mergeValue_obj (overwrite : Bool) (target source : Members) :
    mergeValue overwrite (.obj target) (.obj source) =
      .obj (mergeMembers overwrite target source) := by
  rw [mergeValue]

theorem merge_conflict (overwrite : Bool) {v w : Value} (differ : v.kind ≠ w.kind) :
    mergeValue overwrite v w = if overwrite then w else v := by
  cases v <;> cases w <;> first | rfl | exact absurd rfl differ

theorem at?_conflict (overwrite : Bool) {target source : Members}
    (distinct : (Value.obj source).Distinct) {path : List String} {v w : Value}
    (own : at? path (.obj target) = some v) (other : at? path (.obj source) = some w)
    (differ : v.kind ≠ w.kind) :
    at? path (.obj (mergeMembers overwrite target source)) =
      some (if overwrite then w else v) := by
  rw [← mergeValue_obj, at?_meet overwrite distinct own other, merge_conflict overwrite differ]

theorem keys_mergeMembers (overwrite : Bool) (target : Members) {source : Members}
    (distinct : (Table.keys source).Nodup) :
    Table.keys (mergeMembers overwrite target source) =
      Table.keys target ++ (Table.keys source).filter (· ∉ Table.keys target) := by
  induction source generalizing target with
  | nil =>
    rw [mergeMembers]
    exact (List.append_nil _).symm
  | cons entry rest ih =>
    rcases entry with ⟨key, v⟩
    have keys : Table.keys ((key, v) :: rest) = key :: Table.keys rest := rfl
    rw [keys, List.nodup_cons] at distinct
    rw [mergeMembers, ih _ distinct.2, Table.keys_put, keys]
    by_cases present : key ∈ Table.keys target
    · rw [if_pos present, List.filter_cons_of_neg (by simpa using present)]
    · rw [if_neg present, List.filter_cons_of_pos (by simpa using present), List.append_assoc,
        List.singleton_append]
      congr 2
      refine List.filter_congr fun k later => ?_
      have other : k ≠ key := fun same => distinct.1 (same ▸ later)
      simp [other]

structure Meet (target source : Members) (path : List String) (members others : Members) :
    Prop where
  own : at? path (.obj target) = some (.obj members)
  other : at? path (.obj source) = some (.obj others)

/-- How two objects are put together at every depth, whichever of them has precedence. -/
structure Joins (target source result : Members) : Prop where
  /-- Own keys come first, and those that only the source has come after them. -/
  keys : ∀ path members others, Meet target source path members others →
    ∃ merged, at? path (.obj result) = some (.obj merged) ∧
      Table.keys merged =
        Table.keys members ++ (Table.keys others).filter (· ∉ Table.keys members)
  /-- What only the target has stays as it is. -/
  kept : ∀ path members others key v, Meet target source path members others →
    key ∉ Table.keys others → Table.get? key members = some v →
    at? (path ++ [key]) (.obj result) = some v
  /-- What only the source has comes in as it is. -/
  new : ∀ path members others key w, Meet target source path members others →
    key ∉ Table.keys members → Table.get? key others = some w →
    at? (path ++ [key]) (.obj result) = some w
  /-- Where arrays meet the target stays in front of a part of the source. -/
  united : ∀ path items others, at? path (.obj target) = some (.arr items) →
    at? path (.obj source) = some (.arr others) →
    ∃ added, at? path (.obj result) = some (.arr (items ++ added)) ∧ added.Sublist others

/-- A result that has everything of its target, and of its source what the target leaves room
for. -/
structure Extends (target source result : Members) : Prop extends Joins target source result where
  scalars : ∀ path v, v.isScalar = true → at? path (.obj target) = some v →
    at? path (.obj result) = some v
  conflicts : ∀ path v w, at? path (.obj target) = some v → at? path (.obj source) = some w →
    v.kind ≠ w.kind → at? path (.obj result) = some v
  arrays : ∀ path items, at? path (.obj target) = some (.arr items) →
    ∃ merged, at? path (.obj result) = some (.arr merged) ∧ items <+: merged

structure Overrides (target source result : Members) : Prop
    extends Joins target source result where
  scalars : ∀ path w, w.isScalar = true → at? path (.obj source) = some w →
    at? path (.obj result) = some w
  conflicts : ∀ path v w, at? path (.obj target) = some v → at? path (.obj source) = some w →
    v.kind ≠ w.kind → at? path (.obj result) = some w
  arrays : ∀ path items, at? path (.obj source) = some (.arr items) →
    ∃ merged, at? path (.obj result) = some (.arr merged) ∧
      ∀ v ∈ items, ∃ w ∈ merged, w.Alike v

theorem mergeMembers_joins (overwrite : Bool) (target : Members) {source : Members}
    (distinct : (Value.obj source).Distinct) :
    Joins target source (mergeMembers overwrite target source) := by
  have merged {path : List String} {members others : Members}
      (meet : Meet target source path members others) :
      at? path (.obj (mergeMembers overwrite target source)) =
        some (.obj (mergeMembers overwrite members others)) := by
    rw [← mergeValue_obj, at?_meet overwrite distinct meet.own meet.other, mergeValue_obj]
  have under {path : List String} {members others : Members}
      (meet : Meet target source path members others) (key : String) :
      at? (path ++ [key]) (.obj (mergeMembers overwrite target source)) =
        joined overwrite (Table.get? key members) (Table.get? key others) := by
    rw [at?_append, merged meet, Option.bind_some, at?, Value.member?,
      get?_mergeMembers overwrite members (at?_distinct distinct meet.other).keys]
    exact Option.bind_fun_some _
  refine ⟨?_, ?_, ?_, ?_⟩
  · intro path members others meet
    exact ⟨_, merged meet,
      keys_mergeMembers overwrite members (at?_distinct distinct meet.other).keys⟩
  · intro path members others key v meet absent found
    rw [under meet, found, Table.get?_eq_none absent]
    rfl
  · intro path members others key w meet absent found
    rw [under meet, found, Table.get?_eq_none absent]
    rfl
  · intro path items others own other
    rw [← mergeValue_obj, at?_meet overwrite distinct own other, mergeValue, mergeItems_eq]
    exact ⟨newItems items others, rfl, newItems_sublist items others⟩

/-- Without precedence a merge only adds to its target. -/
theorem mergeMembers_extends (target : Members) {source : Members}
    (distinct : (Value.obj source).Distinct) :
    Extends target source (mergeMembers false target source) := by
  have joins := mergeMembers_joins false target distinct
  refine ⟨joins, ?_, ?_, ?_⟩
  · intro path v scalar found
    rw [← mergeValue_obj]
    exact at?_target (.obj target) distinct scalar found
  · intro path v w own other differ
    exact at?_conflict false distinct own other differ
  · intro path items own
    cases other : at? path (.obj source) with
    | none =>
      rw [← mergeValue_obj]
      exact ⟨items, at?_target_alone distinct own other, List.prefix_rfl⟩
    | some w =>
      by_cases same : Value.kind (.arr items) = w.kind
      · cases w with
        | arr others =>
          obtain ⟨added, stands, -⟩ := joins.united path items others own other
          exact ⟨items ++ added, stands, List.prefix_append items added⟩
        | _ => cases same
      · exact ⟨items, at?_conflict false distinct own other same, List.prefix_rfl⟩

def fixedPart : Members :=
  [("level", .str "error"),
    ("sinks", .arr [.str "console", .obj [("to", .str "a"), ("cut", .null)]]),
    ("limits", .obj [("size", .bool true), ("age", .obj [])])]

def sitePart : Members :=
  [("limits", .obj [("count", .arr [.null, .null]), ("size", .bool false), ("age", .null)]),
    ("sinks", .arr [.str "file", .obj [("cut", .null), ("to", .str "a")]]), ("level", .obj [])]

theorem site_extends :
    Extends fixedPart sitePart
      [("level", .str "error"),
        ("sinks", .arr [.str "console", .obj [("to", .str "a"), ("cut", .null)], .str "file"]),
        ("limits",
          .obj [("size", .bool true), ("age", .obj []), ("count", .arr [.null, .null])])] := by
  have distinct : (Value.obj sitePart).Distinct := by decide
  exact mergeMembers_extends fixedPart distinct

/-- With precedence everything of the source comes in, and the rest of the target stays. -/
theorem mergeMembers_overrides {target source : Members} (own : (Value.obj target).Distinct)
    (other : (Value.obj source).Distinct) :
    Overrides target source (mergeMembers true target source) := by
  refine ⟨mergeMembers_joins true target other, ?_, ?_, ?_⟩
  · intro path w scalar found
    rw [← mergeValue_obj]
    exact at?_source (.obj target) other scalar found
  · intro path v w here there differ
    exact at?_conflict true other here there differ
  · intro path items there
    have reflexive : ∀ v ∈ items, ∃ w ∈ items, w.Alike v := fun v member => ⟨v, member, .refl v⟩
    cases here : at? path (.obj target) with
    | none =>
      rw [← mergeValue_obj]
      exact ⟨items, at?_source_alone other here there, reflexive⟩
    | some v =>
      by_cases same : v.kind = Value.kind (.arr items)
      · cases v with
        | arr old =>
          rw [← mergeValue_obj, at?_meet true other here there, mergeValue]
          exact ⟨_, rfl, mergeItems_alike (at?_distinct own here).items
            (at?_distinct other there).items⟩
        | _ => cases same
      · exact ⟨items, at?_conflict true other here there same, reflexive⟩

theorem site_overrides :
    Overrides fixedPart sitePart
      [("level", .obj []),
        ("sinks", .arr [.str "console", .obj [("to", .str "a"), ("cut", .null)], .str "file"]),
        ("limits",
          .obj [("size", .bool false), ("age", .null), ("count", .arr [.null, .null])])] := by
  have own : (Value.obj fixedPart).Distinct := by decide
  have other : (Value.obj sitePart).Distinct := by decide
  exact mergeMembers_overrides own other

end StructuredLog.Config
