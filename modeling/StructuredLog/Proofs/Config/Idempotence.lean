import StructuredLog.Proofs.Config.Layering

/-!
Merging twice is merging once. A target that has taken a source in holds under every key of it
what a further merge would make of it, so that the second merge puts back what is there.
-/

namespace StructuredLog.Config

open Json (Value Members same_self)

theorem mergeMembers_same {overwrite : Bool} {target source : Members}
    (held : ∀ entry ∈ source, ∃ old, Table.get? entry.1 target = some old ∧
      mergeValue overwrite old entry.2 = old) :
    mergeMembers overwrite target source = target := by
  induction source with
  | nil => rw [mergeMembers]
  | cons entry rest ih =>
    rcases entry with ⟨key, v⟩
    rw [List.forall_mem_cons] at held
    obtain ⟨⟨old, found, stays⟩, others⟩ := held
    rw [mergeMembers, found]
    show mergeMembers overwrite (Table.put key (mergeValue overwrite old v) target) rest = target
    rw [stays, Table.put_get? found, ih others]

theorem mergeItems_again (target : List Value) {source : List Value}
    (distinct : ∀ v ∈ source, v.Distinct) :
    mergeItems (mergeItems target source) source = mergeItems target source := by
  apply mergeItems_covered
  intro v member
  exact mergeItems_covers target (same_self (distinct v member)) member

theorem mergeItems_self {items : List Value} (distinct : ∀ v ∈ items, v.Distinct) :
    mergeItems items items = items := by
  apply mergeItems_covered
  intro v member
  exact List.any_eq_true.mpr ⟨v, member, same_self (distinct v member)⟩

theorem mergeValue_self (overwrite : Bool) {v : Value} (distinct : v.Distinct) :
    mergeValue overwrite v v = v := by
  induction v using Value.structural with
  | null | bool | num | str =>
    rw [merge_scalar overwrite (.inl rfl)]
    exact ite_self _
  | arr items _ => rw [mergeValue, mergeItems_self distinct.items]
  | obj members ih =>
    rw [mergeValue_obj, mergeMembers_same]
    rintro ⟨key, v⟩ entry
    exact ⟨v, Table.get?_of_mem distinct.keys entry,
      ih (key, v) entry (distinct.members (key, v) entry)⟩

theorem merge_conflict_again (overwrite : Bool) {target source : Value} (distinct : source.Distinct)
    (differ : target.kind ≠ source.kind) :
    mergeValue overwrite (mergeValue overwrite target source) source =
      mergeValue overwrite target source := by
  rw [merge_conflict overwrite differ]
  cases overwrite with
  | false => exact merge_conflict false differ
  | true => exact mergeValue_self true distinct

theorem mergeValue_again (overwrite : Bool) (target : Value) {source : Value}
    (distinct : source.Distinct) :
    mergeValue overwrite (mergeValue overwrite target source) source =
      mergeValue overwrite target source := by
  induction source using Value.structural generalizing target with
  | null | bool | num | str =>
    rw [merge_scalar overwrite (.inr rfl), merge_scalar overwrite (.inr rfl)]
    cases overwrite <;> rfl
  | arr source _ =>
    cases target with
    | arr items => rw [mergeValue, mergeValue, mergeItems_again items distinct.items]
    | _ =>
      refine merge_conflict_again overwrite distinct fun same => ?_
      cases same
  | obj source ih =>
    cases target with
    | obj members =>
      rw [mergeValue_obj, mergeValue_obj, mergeMembers_same]
      rintro ⟨key, v⟩ entry
      have own := distinct.members (key, v) entry
      rw [get?_mergeMembers overwrite members distinct.keys,
        Table.get?_of_mem distinct.keys entry]
      -- What came in new meets itself; what was merged is merged with the same value again.
      cases Table.get? key members with
      | none => exact ⟨v, rfl, mergeValue_self overwrite own⟩
      | some old => exact ⟨_, rfl, ih (key, v) entry old own⟩
    | _ =>
      refine merge_conflict_again overwrite distinct fun same => ?_
      cases same

/-- A source that has been merged in adds nothing more, and a document adds nothing to itself. -/
theorem mergeMembers_again (overwrite : Bool) (target : Members) {source : Members}
    (distinct : (Value.obj source).Distinct) :
    mergeMembers overwrite (mergeMembers overwrite target source) source =
        mergeMembers overwrite target source ∧
      mergeMembers overwrite source source = source := by
  have again := mergeValue_again overwrite (.obj target) distinct
  have self := mergeValue_self overwrite distinct
  rw [mergeValue_obj, mergeValue_obj] at again
  rw [mergeValue_obj] at self
  exact ⟨Value.obj.inj again, Value.obj.inj self⟩

def repeating : Members :=
  [("names", .arr [.str "a", .str "a"]),
    ("marks", .arr [.obj [("x", .null), ("y", .null)], .obj [("y", .null), ("x", .null)]])]

def marked : Members :=
  [("marks", .arr [.obj [("y", .null), ("x", .null)]]), ("names", .null)]

theorem repeating_again :
    mergeMembers true (mergeMembers true marked repeating) repeating =
        mergeMembers true marked repeating ∧
      mergeMembers true repeating repeating = repeating := by
  have distinct : (Value.obj repeating).Distinct := by decide
  exact mergeMembers_again true marked distinct

end StructuredLog.Config
