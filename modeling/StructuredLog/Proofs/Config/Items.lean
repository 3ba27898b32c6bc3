import StructuredLog.Proofs.Config.Merge
import StructuredLog.Proofs.Json.Equality

/-!
Arrays as ordered sets. A merge leaves its target in front and adds those items of its source that
are like none before them, in their order.
-/

namespace StructuredLog.Config

open Json (Value Integer same_iff same_self)

def newItems (target : List Value) : List Value → List Value
  | [] => []
  | v :: rest =>
      if target.any (Value.same · v) then newItems target rest
      else v :: newItems (target ++ [v]) rest

theorem mergeItems_eq (target source : List Value) :
    mergeItems target source = target ++ newItems target source := by
  fun_induction mergeItems target source with
  | case1 target => rw [newItems, List.append_nil]
  | case2 target v rest ih =>
    rw [newItems, ih]
    split
    · rfl
    · rw [List.append_assoc, List.singleton_append]

theorem newItems_sublist (target source : List Value) :
    (newItems target source).Sublist source := by
  fun_induction newItems target source with
  | case1 => exact .refl _
  | case2 target v rest _ ih => exact ih.cons v
  | case3 target v rest _ ih => exact ih.cons_cons v

theorem newItems_apart {target source : List Value} {v w : Value} (own : v ∈ target)
    (new : w ∈ newItems target source) : v.same w = false := by
  fun_induction newItems target source with
  | case1 => cases new
  | case2 target u rest _ ih => exact ih own new
  | case3 target u rest unlike ih =>
    rcases List.mem_cons.mp new with rfl | later
    · rw [Bool.not_eq_true, List.any_eq_false] at unlike
      exact Bool.eq_false_of_not_eq_true (unlike v own)
    · exact ih (List.mem_append_left _ own) later

theorem newItems_pairwise (target source : List Value) :
    (newItems target source).Pairwise fun v w => v.same w = false := by
  fun_induction newItems target source with
  | case1 => exact .nil
  | case2 target v rest _ ih => exact ih
  | case3 target v rest _ ih =>
    refine .cons (fun w later => ?_) ih
    exact newItems_apart (List.mem_append_right _ List.mem_cons_self) later

theorem mergeItems_covers (target : List Value) {source : List Value} {v : Value}
    (reflexive : v.same v = true) (member : v ∈ source) :
    (mergeItems target source).any (Value.same · v) = true := by
  induction source generalizing target with
  | nil => cases member
  | cons w rest ih =>
    rw [mergeItems]
    rcases List.mem_cons.mp member with rfl | later
    · rw [mergeItems_eq, List.any_append, Bool.or_eq_true]
      left
      by_cases found : target.any (Value.same · v) = true
      · rwa [if_pos found]
      · rw [if_neg found, List.any_append, List.any_cons, reflexive, Bool.true_or, Bool.or_true]
    · exact ih _ later

theorem mergeItems_covered {target source : List Value}
    (covered : ∀ v ∈ source, target.any (Value.same · v) = true) :
    mergeItems target source = target := by
  induction source with
  | nil => rfl
  | cons v rest ih =>
    rw [List.forall_mem_cons] at covered
    rw [mergeItems, if_pos covered.1, ih covered.2]

def Unrepeated (items : List Value) : Prop := items.Pairwise fun v w => ¬v.Alike w

structure TakenIn (target source result : List Value) : Prop where
  /-- The target stays in front of a part of the source, and nothing new is like what comes before
  it. -/
  added : ∃ added, result = target ++ added ∧ added.Sublist source ∧ Unrepeated added ∧
    ∀ v ∈ target, ∀ w ∈ added, ¬v.Alike w
  covered : ∀ v ∈ source, ∃ w ∈ result, w.Alike v
  unrepeated : Unrepeated target → Unrepeated result

theorem mergeItems_alike {target source : List Value} (own : ∀ v ∈ target, v.Distinct)
    (other : ∀ v ∈ source, v.Distinct) :
    ∀ v ∈ source, ∃ w ∈ mergeItems target source, w.Alike v := by
  intro v member
  have keys := other v member
  obtain ⟨w, there, same⟩ := List.any_eq_true.mp (mergeItems_covers target (same_self keys) member)
  have found : w.Distinct := (mem_mergeItems there).elim (own w) (other w)
  exact ⟨w, there, (same_iff found keys).mp same⟩

/-- Arrays are merged as ordered sets, and the equality that tells their items apart does not look
at the order of members. -/
theorem mergeItems_union {target source : List Value} (own : ∀ v ∈ target, v.Distinct)
    (other : ∀ v ∈ source, v.Distinct) :
    TakenIn target source (mergeItems target source) ∧ Equivalence Value.Alike ∧
      (∀ v w : Value, v.Distinct → w.Distinct → (v.same w = true ↔ v.Alike w)) ∧
      ∀ (n : Integer) (x : Json.Real), (Value.num (.integer n)).same (.num (.real x)) = false := by
  have part := newItems_sublist target source
  have new : ∀ w ∈ newItems target source, w.Distinct := fun w member =>
    other w (part.subset member)
  have unlike {v w : Value} (left : v.Distinct) (right : w.Distinct) (differ : v.same w = false) :
      ¬v.Alike w := by
    rw [← same_iff left right, differ]
    exact Bool.false_ne_true
  have apart : ∀ v ∈ target, ∀ w ∈ newItems target source, ¬v.Alike w := fun v old w member =>
    unlike (own v old) (new w member) (newItems_apart old member)
  have each : Unrepeated (newItems target source) :=
    (newItems_pairwise target source).imp_of_mem fun left right =>
      unlike (new _ left) (new _ right)
  refine ⟨⟨?_, mergeItems_alike own other, ?_⟩, ⟨.refl, .symm, .trans⟩, ?_, ?_⟩
  · exact ⟨newItems target source, mergeItems_eq target source, part, each, apart⟩
  · intro unrepeated
    rw [mergeItems_eq]
    exact List.pairwise_append.mpr ⟨unrepeated, each, apart⟩
  · exact fun _ _ => same_iff
  · exact fun _ _ => rfl

def counted : List Value :=
  [.num (.integer ⟨1, by decide, by decide⟩),
    .obj [("a", .null), ("b", .obj [("c", .bool true), ("d", .bool false)])]]

def realOne : Value := .num (.real ⟨⟨0x3FF0000000000000⟩, by decide⟩)

def recounted : List Value :=
  [.obj [("b", .obj [("d", .bool false), ("c", .bool true)]), ("a", .null)], realOne, realOne]

theorem counted_union : TakenIn counted recounted (counted ++ [realOne]) := by
  have taken : mergeItems counted recounted = counted ++ [realOne] := rfl
  have own : ∀ v ∈ counted, v.Distinct := by decide
  have other : ∀ v ∈ recounted, v.Distinct := by decide
  exact taken ▸ (mergeItems_union own other).1

end StructuredLog.Config
