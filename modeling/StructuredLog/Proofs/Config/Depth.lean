import StructuredLog.Proofs.Config.Inside

/-!
How deep documents become. Variables inside strings and keys, the merge of copies, and putting
copies where a template stood add no level, since a template has its content one level further
down; so a document that is expanded in this way is no deeper than it was.
-/

namespace StructuredLog.Config

open Json (Value Members itemsDepth membersDepth itemsDepth_le membersDepth_le)

section Parts

variable {bound : Nat}

theorem depth_of_get? {members : Members} {key : String} {v : Value}
    (found : Table.get? key members = some v) (shallow : membersDepth members ≤ bound) :
    v.depth ≤ bound := membersDepth_le.mp shallow (key, v) (Table.mem_of_get? found)

theorem membersDepth_put {members : Members} {key : String} {v : Value} (own : v.depth ≤ bound)
    (others : membersDepth members ≤ bound) :
    membersDepth (Table.put key v members) ≤ bound := by
  apply membersDepth_le.mpr
  intro entry member
  rcases Table.mem_put member with rfl | old
  · exact own
  · exact membersDepth_le.mp others entry old

theorem membersDepth_placeGroup {before after : Members} {group : String} {v : Value}
    (own : v.depth ≤ bound) (others : membersDepth (before ++ after) ≤ bound) :
    membersDepth (placeGroup before after group v) ≤ bound := by
  unfold placeGroup
  split
  · exact membersDepth_put own others
  · rw [membersDepth_le, List.forall_mem_append] at others ⊢
    exact ⟨others.1, List.forall_mem_cons.mpr ⟨own, others.2⟩⟩

theorem Replaced.depth {vars : Members} {v w : Value} (replaced : Replaced vars v w) :
    w.depth ≤ v.depth := by
  induction replaced with
  | null | bool | num | str => exact Nat.le_refl 0
  | @arr items results length each ih =>
    apply Nat.succ_le_succ
    apply itemsDepth_le.mpr
    intro w member
    obtain ⟨i, v, own, source⟩ := exists_beside length.symm member
    exact (ih i v w source own).trans
      (itemsDepth_le.mp (Nat.le_refl _) v (List.mem_of_getElem? source))
  | @obj members renamed result length keys each collects ih =>
    apply Nat.succ_le_succ
    apply membersDepth_le.mpr
    intro new member
    obtain ⟨i, old, own, source⟩ := exists_beside length.symm (collects.mem member)
    exact (ih i old new source own).trans
      (membersDepth_le.mp (Nat.le_refl _) old (List.mem_of_getElem? source))

/-- In the text of a document, unlike inside its strings, a value may open containers. -/
example :
    (replaceVariables .tree [("v", .str "\",[[]],\"")] (.arr [.str "(^^v^^)"])).map Value.depth =
        .ok 1 ∧
      (replaceVariables .text [("v", .str "\",[[]],\"")] (.arr [.str "(^^v^^)"])).map Value.depth =
        .ok 3 := by exact ⟨rfl, rfl⟩

end Parts

section Merging

variable {bound : Nat} {overwrite : Bool}

theorem mergeItems_depth {target source : List Value} (own : itemsDepth target ≤ bound)
    (other : itemsDepth source ≤ bound) : itemsDepth (mergeItems target source) ≤ bound := by
  apply itemsDepth_le.mpr
  intro v member
  rcases mem_mergeItems member with old | new
  · exact itemsDepth_le.mp own v old
  · exact itemsDepth_le.mp other v new

theorem mergeMembers_depth {target source : Members}
    (merges : ∀ entry ∈ source, ∀ old : Value, old.depth ≤ bound → entry.2.depth ≤ bound →
      (mergeValue overwrite old entry.2).depth ≤ bound)
    (own : membersDepth target ≤ bound) (other : membersDepth source ≤ bound) :
    membersDepth (mergeMembers overwrite target source) ≤ bound := by
  induction source generalizing target with
  | nil => exact own
  | cons entry rest ih =>
    rcases entry with ⟨key, v⟩
    rw [List.forall_mem_cons] at merges
    obtain ⟨here, later⟩ := Nat.max_le.mp other
    rw [mergeMembers]
    refine ih merges.2 (membersDepth_put ?_ own) later
    split
    · next old found => exact merges.1 old (depth_of_get? found own) here
    · exact here

theorem mergeValue_depth {target source : Value} (own : target.depth ≤ bound)
    (other : source.depth ≤ bound) : (mergeValue overwrite target source).depth ≤ bound := by
  induction source using Value.structural generalizing target bound with
  | null | bool | num | str => cases overwrite <;> assumption
  | arr source _ =>
    cases target with
    | arr items =>
      cases bound with
      | zero => exact absurd own (Nat.not_succ_le_zero _)
      | succ bound =>
        exact Nat.succ_le_succ
          (mergeItems_depth (Nat.le_of_succ_le_succ own) (Nat.le_of_succ_le_succ other))
    | _ => cases overwrite <;> assumption
  | obj source ih =>
    cases target with
    | obj members =>
      cases bound with
      | zero => exact absurd own (Nat.not_succ_le_zero _)
      | succ bound =>
        exact Nat.succ_le_succ
          (mergeMembers_depth (fun entry member _ => ih entry member)
            (Nat.le_of_succ_le_succ own) (Nat.le_of_succ_le_succ other))
    | _ => cases overwrite <;> assumption

theorem mergeCopies_depth {key : String} {copies : List Value} {before merged : Members}
    (each : ∀ v ∈ copies, v.depth ≤ bound) (own : membersDepth before ≤ bound)
    (done : mergeCopies key before copies = .ok merged) : membersDepth merged ≤ bound := by
  induction copies generalizing before with
  | nil =>
    cases done
    exact own
  | cons v rest ih =>
    rw [List.forall_mem_cons] at each
    cases v with
    | obj members =>
      have inside : membersDepth members ≤ bound := Nat.le_of_succ_le each.1
      exact ih each.2 (mergeMembers_depth (fun _ _ _ => mergeValue_depth) own inside) done
    | _ => cases done

end Merging

section Templates

variable {shape : Shape} {key group : String} {bound : Nat}

theorem ofValue_content {v : Value} {t : Template} (done : Template.ofValue key v = .ok t) :
    t.content.depth < v.depth := by
  cases v with
  | obj members =>
    rw [Template.ofValue] at done
    split at done
    · cases done
    · obtain ⟨range, -, done⟩ := bind_ok done
      obtain ⟨numbers, -, done⟩ := bind_ok done
      obtain ⟨found, -, done⟩ := bind_ok done
      cases found with
      | obj _ =>
        obtain ⟨vars, -, done⟩ := bind_ok done
        obtain ⟨content, own, same⟩ := bind_ok done
        cases same
        simp only at own
        split at own
        · next found =>
          cases own
          exact Nat.lt_succ_of_le (depth_of_get? found (Nat.le_refl _))
        · cases own
      | _ => cases done
  | _ => cases done

theorem instantiate_depth {template : Value} {copies : List Value}
    (copied : instantiate .tree key template = .ok copies) :
    0 < template.depth ∧ ∀ v ∈ copies, v.depth < template.depth := by
  obtain ⟨t, parts, made⟩ := bind_ok copied
  have content := ofValue_content parts
  refine ⟨Nat.zero_lt_of_lt content, fun v member => ?_⟩
  obtain ⟨i, -, own⟩ := forall₂_source (mapM_ok_iff.mp made) v member
  exact Nat.lt_of_le_of_lt (substituteTree_replaced own).depth content

theorem gathered_depth {now : Option Value} {copies : List Value} {v : Value} (room : 0 < bound)
    (own : ∀ old, now = some old → old.depth ≤ bound) (each : ∀ v ∈ copies, v.depth < bound)
    (gathers : gathered shape key group now copies = .ok v) : v.depth ≤ bound := by
  obtain ⟨less, rfl⟩ := Nat.exists_eq_add_one_of_ne_zero (Nat.ne_of_gt room)
  have inside : ∀ v ∈ copies, v.depth ≤ less := fun v member => Nat.le_of_lt_succ (each v member)
  cases shape with
  | object =>
    obtain ⟨merged, done, rfl⟩ := map_ok gathers
    have nothing : membersDepth [] ≤ less := Nat.zero_le less
    exact Nat.succ_le_succ (mergeCopies_depth inside nothing done)
  | array =>
    simp only [gathered] at gathers
    split at gathers
    · cases gathers
      exact Nat.succ_le_succ (itemsDepth_le.mpr inside)
    · next items =>
      cases gathers
      have before := itemsDepth_le.mp (Nat.le_of_succ_le_succ (own _ rfl))
      exact Nat.succ_le_succ (itemsDepth_le.mpr (List.forall_mem_append.mpr ⟨before, inside⟩))
    · cases gathers

theorem group_depth {before after : Members} {template v : Value} {copies : List Value}
    (shallow : membersDepth (before ++ (key, template) :: after) ≤ bound)
    (copied : instantiate .tree key template = .ok copies)
    (gathers : gathered shape key group (Table.get? group (before ++ after)) copies = .ok v) :
    membersDepth (before ++ after) ≤ bound ∧ v.depth ≤ bound := by
  rw [membersDepth_le, List.forall_mem_append, List.forall_mem_cons] at shallow
  obtain ⟨front, own, back⟩ := shallow
  have others : membersDepth (before ++ after) ≤ bound :=
    membersDepth_le.mpr (List.forall_mem_append.mpr ⟨front, back⟩)
  obtain ⟨room, each⟩ := instantiate_depth copied
  refine ⟨others, gathered_depth (Nat.lt_of_lt_of_le room own) ?_ ?_ gathers⟩
  · exact fun old found => depth_of_get? found others
  · exact fun v member => Nat.lt_of_lt_of_le (each v member) own

variable {expand : Value → Attempt Value}

theorem Treated.depth {members next : Members}
    (keeps : ∀ v result, expand v = .ok result → result.depth ≤ v.depth)
    (shallow : membersDepth members ≤ bound)
    (treated : Treated .tree shape expand key members next) : membersDepth next ≤ bound := by
  cases treated with
  | absent absent => exact shallow
  | changed plain found expanded =>
    exact membersDepth_put ((keeps _ _ expanded).trans (depth_of_get? found shallow)) shallow
  | replaced isTemplate place copied gathers expanded =>
    obtain ⟨others, own⟩ := group_depth (place ▸ shallow) copied gathers
    exact membersDepth_placeGroup ((keeps _ _ expanded).trans own) others

theorem expandKeys_depth {keys : List String} {members last : Members}
    (keeps : ∀ v result, expand v = .ok result → result.depth ≤ v.depth)
    (shallow : membersDepth members ≤ bound)
    (done : expandKeys .tree shape expand keys members = .ok last) :
    membersDepth last ≤ bound := by
  induction keys generalizing members with
  | nil =>
    cases done
    exact shallow
  | cons key rest ih =>
    obtain ⟨next, treated, later⟩ := expandKeys_treated done
    exact ih (treated.depth keeps shallow) later

/-- Whatever comes out of expansion inside strings is no deeper than what went in. -/
theorem expandWithin_depth {levels : Nat} {v result : Value}
    (done : expandWithin .tree shape levels v = .ok result) : result.depth ≤ v.depth := by
  induction levels generalizing v result with
  | zero =>
    cases v with
    | arr items => cases done
    | obj members => cases done
    | _ =>
      cases done
      exact Nat.le_refl 0
  | succ levels ih =>
    have keeps : ∀ v result, expandWithin .tree shape levels v = .ok result →
        result.depth ≤ v.depth := fun _ _ own => ih own
    cases v with
    | arr items =>
      rw [expandWithin] at done
      obtain ⟨results, inner, rfl⟩ := map_ok done
      apply Nat.succ_le_succ
      apply itemsDepth_le.mpr
      intro v member
      obtain ⟨source, there, gives⟩ := forall₂_source (mapM_ok_iff.mp inner) v member
      exact (keeps source v gives).trans (itemsDepth_le.mp (Nat.le_refl _) source there)
    | obj members =>
      rw [expandWithin] at done
      obtain ⟨last, inner, rfl⟩ := map_ok done
      exact Nat.succ_le_succ (expandKeys_depth keeps (Nat.le_refl _) inner)
    | _ =>
      cases done
      exact Nat.le_refl 0

end Templates

end StructuredLog.Config
