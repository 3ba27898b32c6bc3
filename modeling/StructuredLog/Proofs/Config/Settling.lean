import Mathlib.Data.List.Forall2
import Mathlib.Data.List.Nodup
import StructuredLog.Proofs.Config.Expansion
import StructuredLog.Proofs.Config.Merge
import StructuredLog.Proofs.Config.Pattern
import StructuredLog.Proofs.Config.Range
import StructuredLog.Proofs.Json.Reading

/-!
Expansion leaves nothing to expand. Treating a key of an object either changes the value under it or
puts a group in the place of a template, and in both cases what was put in is expanded itself; since
a group never is a template, only the keys that still wait can be templates. So an expanded document
has no template at any depth, and to expand it again changes nothing.
-/

namespace StructuredLog.Config

open Json (Value Members)

theorem Shape.group?_group {shape : Shape} {key group : String}
    (isTemplate : shape.group? key = some group) : shape.group? group = none := by
  obtain ⟨name, found, rfl⟩ := Option.map_eq_some_iff.mp isTemplate
  have closes : shape.marks.closing ≠ [] := by cases shape <;> exact List.cons_ne_nil _ _
  rw [group?, String.toList_ofList, Marks.firstName_name closes found]
  rfl

theorem map_ok {ε α β : Type} {first : Except ε α} {next : α → β} {result : β}
    (done : first.map next = .ok result) : ∃ a, first = .ok a ∧ next a = result := by
  cases first with
  | error error => cases done
  | ok a =>
    cases done
    exact ⟨a, rfl, rfl⟩

theorem mapError_ok {ε δ α : Type} {first : Except ε α} {f : ε → δ} {a : α} :
    first.mapError f = .ok a ↔ first = .ok a := by
  cases first <;> simp [Except.mapError]

theorem mapM_ok_iff {ε α β : Type} {f : α → Except ε β} {items : List α} {results : List β} :
    items.mapM f = .ok results ↔ List.Forall₂ (fun a b => f a = .ok b) items results := by
  constructor
  · intro done
    induction items generalizing results with
    | nil =>
      cases done
      exact .nil
    | cons a rest ih =>
      rw [List.mapM_cons] at done
      obtain ⟨b, own, done⟩ := bind_ok done
      obtain ⟨others, later, same⟩ := bind_ok done
      cases same
      exact .cons own (ih later)
  · intro each
    induction each with
    | nil => rfl
    | cons own later ih =>
      rw [List.mapM_cons, own, ih]
      rfl

theorem forall₂_source {α β : Type} {R : α → β → Prop} {items : List α} {results : List β}
    (each : List.Forall₂ R items results) : ∀ b ∈ results, ∃ a ∈ items, R a b := by
  induction each with
  | nil => exact List.forall_mem_nil _
  | @cons a b items results own later ih =>
    refine List.forall_mem_cons.mpr ⟨⟨a, List.mem_cons_self, own⟩, fun c member => ?_⟩
    obtain ⟨source, there, related⟩ := ih c member
    exact ⟨source, List.mem_cons_of_mem _ there, related⟩

section Treatment

/-- What a group holds when copies come to what is under its name. -/
def gathered (shape : Shape) (key group : String) (now : Option Value) (copies : List Value) :
    Except Error Value :=
  match shape with
  | .object => (mergeCopies key [] copies).map .obj
  | .array => match now with
    | none => .ok (.arr copies)
    | some (.arr items) => .ok (.arr (items ++ copies))
    | some other => .error (.badTemplate (.groupNotArray group other.kind))

inductive Treated (mode : Substitution) (shape : Shape) (expand : Value → Attempt Value)
    (key : String) (members : Members) : Members → Prop where
  | absent (absent : key ∉ Table.keys members) : Treated mode shape expand key members members
  | changed {v result : Value} (plain : shape.group? key = none)
      (found : Table.get? key members = some v) (expanded : expand v = .ok result) :
      Treated mode shape expand key members (Table.put key result members)
  | replaced {group : String} {before after : Members} {template v result : Value}
      {copies : List Value} (isTemplate : shape.group? key = some group)
      (place : members = before ++ (key, template) :: after)
      (copied : instantiate mode key template = .ok copies)
      (gathers : gathered shape key group (Table.get? group (before ++ after)) copies = .ok v)
      (expanded : expand v = .ok result) :
      Treated mode shape expand key members (placeGroup before after group result)

variable {mode : Substitution} {shape : Shape} {expand : Value → Attempt Value}
  {key group k : String} {members before after next : Members} {v result : Value}

theorem get?_placeGroup (before after : Members) (group : String) (v : Value) (k : String) :
    Table.get? k (placeGroup before after group v) =
      if k = group then some v else Table.get? k (before ++ after) := by
  unfold placeGroup
  split
  · by_cases same : k = group
    · rw [if_pos same, same, Table.get?_put_self]
    · rw [if_neg same, Table.get?_put_other _ _ same]
  · next absent =>
    rw [Table.has, Table.get?_append, Bool.not_eq_true, Option.isSome_eq_false_iff,
      Option.isNone_iff_eq_none, Option.or_eq_none_iff] at absent
    rw [Table.get?_append, Table.get?_append, Table.get?]
    by_cases same : k = group
    · rw [if_pos same, if_pos same.symm, same, absent.1]
      rfl
    · rw [if_neg same, if_neg (fun equal => same equal.symm)]

theorem put_placeGroup (before after : Members) (group : String) (v result : Value) :
    Table.put group result (placeGroup before after group v) =
      placeGroup before after group result := by
  unfold placeGroup
  split
  · exact Table.put_put group v result _
  · next absent =>
    rw [Table.has_eq_true, Table.keys, List.map_append, List.mem_append, not_or] at absent
    exact Table.put_middle absent.1 v result after

theorem nodup_placeGroup (distinct : (Table.keys (before ++ after)).Nodup) (group : String)
    (v : Value) : (Table.keys (placeGroup before after group v)).Nodup := by
  unfold placeGroup
  split
  · exact Table.nodup_keys_put group v _ distinct
  · next absent =>
    rw [Table.has_eq_true] at absent
    simp only [Table.keys, List.map_append, List.map_cons] at absent distinct ⊢
    rw [List.nodup_middle, List.nodup_cons]
    exact ⟨absent, distinct⟩

theorem replaceTemplate_eq (mode : Substitution) (shape : Shape) (key group : String)
    (before : Members) (template : Value) (after : Members) :
    replaceTemplate mode shape key group before template after =
      (do
        let copies ← instantiate mode key template
        let v ← gathered shape key group (Table.get? group (before ++ after)) copies
        .ok (placeGroup before after group v)) := by
  unfold replaceTemplate
  cases instantiate mode key template with
  | error error => rfl
  | ok copies =>
    cases shape with
    | object =>
      simp only [gathered, bind, Except.bind]
      cases mergeCopies key [] copies <;> rfl
    | array =>
      simp only [gathered, bind, Except.bind]
      cases under : Table.get? group (before ++ after) with
      | none => rfl
      | some now =>
        have has : Table.has group (before ++ after) = true := by rw [Table.has, under]; rfl
        cases now <;> simp only [placeGroup, has, ↓reduceIte]

theorem changeMember_ok {change : Value → Attempt Value}
    (done : changeMember change key members = .ok next) :
    (key ∉ Table.keys members ∧ next = members) ∨
      ∃ v result, Table.get? key members = some v ∧ change v = .ok result ∧
        next = Table.put key result members := by
  unfold changeMember at done
  split at done
  · next v found =>
    obtain ⟨result, changed, same⟩ := map_ok done
    exact .inr ⟨v, result, found, changed, same.symm⟩
  · next missing =>
    cases done
    refine .inl ⟨fun member => ?_, rfl⟩
    obtain ⟨v, found⟩ := Table.mem_keys_iff.mp member
    cases missing.symm.trans found

theorem expandKeys_treated {rest : List String} {last : Members}
    (done : expandKeys mode shape expand (key :: rest) members = .ok last) :
    ∃ next, Treated mode shape expand key members next ∧
      expandKeys mode shape expand rest next = .ok last := by
  rw [expandKeys] at done
  split at done
  · next plain =>
    obtain ⟨next, changed, later⟩ := bind_ok done
    refine ⟨next, ?_, later⟩
    rcases changeMember_ok changed with ⟨absent, rfl⟩ | ⟨v, result, found, expanded, rfl⟩
    · exact .absent absent
    · exact .changed plain found expanded
  · next group isTemplate =>
    split at done
    · next missing => exact ⟨members, .absent (Table.split?_none missing), done⟩
    · next before template after place =>
      obtain ⟨placed, replaced, rest⟩ := bind_ok done
      obtain ⟨next, changed, later⟩ := bind_ok rest
      refine ⟨next, ?_, later⟩
      rw [mapError_ok, replaceTemplate_eq] at replaced
      obtain ⟨copies, copied, replaced⟩ := bind_ok replaced
      obtain ⟨v, gathers, same⟩ := bind_ok replaced
      cases same
      have under := get?_placeGroup before after group v group
      rw [if_pos rfl] at under
      rcases changeMember_ok changed with ⟨absent, -⟩ | ⟨own, result, found, expanded, rfl⟩
      · rw [Table.get?_eq_none absent] at under
        cases under
      · rw [under] at found
        cases found
        rw [put_placeGroup]
        exact .replaced isTemplate (Table.split?_some place) copied gathers expanded

theorem get?_without {template : Value}
    (distinct : (Table.keys (before ++ (key, template) :: after)).Nodup) (k : String) :
    Table.get? k (before ++ after) =
      if k = key then none else Table.get? k (before ++ (key, template) :: after) := by
  simp only [Table.keys, List.map_append, List.map_cons] at distinct
  rw [List.nodup_middle, List.nodup_cons] at distinct
  by_cases same : k = key
  · rw [if_pos same, same]
    apply Table.get?_eq_none
    rw [Table.keys, List.map_append]
    exact distinct.1
  · rw [if_neg same, Table.get?_append, Table.get?_append, Table.get?,
      if_neg (fun equal => same equal.symm)]

theorem Treated.nodup (distinct : (Table.keys members).Nodup)
    (treated : Treated mode shape expand key members next) : (Table.keys next).Nodup := by
  cases treated with
  | absent absent => exact distinct
  | changed plain found expanded => exact Table.nodup_keys_put key _ members distinct
  | replaced isTemplate place copied gathers expanded =>
    rw [place] at distinct
    refine nodup_placeGroup (distinct.sublist ?_) _ _
    exact ((List.sublist_cons_self _ _).append_left _).map _

end Treatment

section Copies

variable {vars : Members}

theorem substituteItems_distinct {items results : List Value}
    (each : ∀ v ∈ items, ∀ result, substituteTree vars v = .ok result → result.Distinct)
    (done : substituteItems vars items = .ok results) : ∀ v ∈ results, v.Distinct := by
  induction items generalizing results with
  | nil =>
    cases done
    exact List.forall_mem_nil _
  | cons v rest ih =>
    rw [List.forall_mem_cons] at each
    rw [substituteItems] at done
    obtain ⟨first, own, done⟩ := bind_ok done
    obtain ⟨others, later, same⟩ := bind_ok done
    cases same
    exact List.forall_mem_cons.mpr ⟨each.1 first own, ih each.2 later⟩

theorem substituteMembers_distinct {members : List (String × Value)} {before after : Members}
    (each : ∀ entry ∈ members, ∀ result, substituteTree vars entry.2 = .ok result →
      result.Distinct)
    (distinct : (Value.obj before).Distinct)
    (done : substituteMembers vars before members = .ok after) : (Value.obj after).Distinct := by
  induction members generalizing before with
  | nil =>
    cases done
    exact distinct
  | cons entry rest ih =>
    rcases entry with ⟨key, v⟩
    rw [List.forall_mem_cons] at each
    rw [substituteMembers] at done
    obtain ⟨newKey, -, done⟩ := bind_ok done
    obtain ⟨result, own, later⟩ := bind_ok done
    exact ih each.2 (distinct_put distinct newKey (each.1 result own)) later

theorem substituteTree_distinct {v result : Value} (done : substituteTree vars v = .ok result) :
    result.Distinct := by
  induction v using Value.structural generalizing result with
  | str s =>
    rw [substituteTree] at done
    obtain ⟨text, -, rfl⟩ := map_ok done
    exact .scalar rfl
  | arr items ih =>
    rw [substituteTree] at done
    obtain ⟨results, inner, rfl⟩ := map_ok done
    exact .arr (substituteItems_distinct (fun v member _ own => ih v member own) inner)
  | obj members ih =>
    rw [substituteTree] at done
    obtain ⟨results, inner, rfl⟩ := map_ok done
    exact substituteMembers_distinct (fun entry member _ own => ih entry member own)
      Json.empty_distinct inner
  | _ =>
    cases done
    exact .scalar rfl

/-- Whatever is written for its variables, a document is one with distinct keys. -/
theorem replaceVariables_distinct {mode : Substitution} {v result : Value}
    (done : replaceVariables mode vars v = .ok result) : result.Distinct := by
  cases mode with
  | tree => exact substituteTree_distinct done
  | text =>
    rw [replaceVariables, substituteText] at done
    obtain ⟨text, -, done⟩ := bind_ok done
    split at done
    · next read =>
      cases done
      exact Json.read_distinct read
    · cases done

theorem instantiate_distinct {mode : Substitution} {key : String} {template : Value}
    {copies : List Value} (copied : instantiate mode key template = .ok copies) :
    ∀ v ∈ copies, v.Distinct := by
  obtain ⟨t, -, made⟩ := bind_ok copied
  intro v member
  obtain ⟨i, -, own⟩ := forall₂_source (mapM_ok_iff.mp made) v member
  exact replaceVariables_distinct own

theorem mergeCopies_distinct {key : String} {copies : List Value} {before merged : Members}
    (each : ∀ v ∈ copies, v.Distinct) (distinct : (Value.obj before).Distinct)
    (done : mergeCopies key before copies = .ok merged) : (Value.obj merged).Distinct := by
  induction copies generalizing before with
  | nil =>
    cases done
    exact distinct
  | cons v rest ih =>
    rw [List.forall_mem_cons] at each
    cases v with
    | obj members =>
      have next := merge_distinct true distinct each.1
      rw [mergeValue] at next
      exact ih each.2 next done
    | _ => cases done

theorem gathered_distinct {shape : Shape} {key group : String} {now : Option Value}
    {copies : List Value} {v : Value} (own : ∀ old, now = some old → old.Distinct)
    (each : ∀ v ∈ copies, v.Distinct) (gathers : gathered shape key group now copies = .ok v) :
    v.Distinct := by
  cases shape with
  | object =>
    obtain ⟨merged, done, rfl⟩ := map_ok gathers
    exact mergeCopies_distinct each Json.empty_distinct done
  | array =>
    simp only [gathered] at gathers
    split at gathers
    · cases gathers
      exact .arr each
    · next items =>
      cases gathers
      exact .arr (List.forall_mem_append.mpr ⟨(own _ rfl).items, each⟩)
    · cases gathers

end Copies

section Levels

/-- Nothing is left to expand in a document that is not too deep. -/
structure Settled (shape : Shape) (levels : Nat) (v : Value) : Prop where
  untemplated : Untemplated shape v
  distinct : v.Distinct
  shallow : v.depth ≤ levels

/-- Members some of whose keys still wait to be treated. -/
structure Waiting (shape : Shape) (levels : Nat) (keys : List String) (members : Members) :
    Prop where
  distinct : (Value.obj members).Distinct
  treated : ∀ key v, Table.get? key members = some v →
    key ∈ keys ∨ shape.group? key = none ∧ Settled shape levels v

variable {mode : Substitution} {shape : Shape} {expand : Value → Attempt Value} {levels : Nat}

theorem Settled.same {v : Value} (settled : Settled shape levels v) :
    expandWithin mode shape levels v = .ok v :=
  expandWithin_same mode shape settled.untemplated settled.shallow

theorem Settled.scalar {v : Value} (scalar : v.isScalar = true) : Settled shape levels v :=
  ⟨.scalar scalar, .scalar scalar, by rw [Json.depth_scalar scalar]; exact Nat.zero_le levels⟩

/-- What can be looked up after a key was treated: there is a new value, under the key itself or
under the group of a template, and the template is gone. -/
theorem Treated.lookup {key : String} {members next : Members}
    (distinct : (Value.obj members).Distinct)
    (treated : Treated mode shape expand key members next) :
    (key ∉ Table.keys members ∧ next = members) ∨
      ∃ target v result, shape.group? target = none ∧ v.Distinct ∧ expand v = .ok result ∧
        ∀ k, Table.get? k next =
          if k = target then some result else if k = key then none else Table.get? k members := by
  cases treated with
  | absent absent => exact .inl ⟨absent, rfl⟩
  | @changed v result plain found expanded =>
    refine .inr ⟨key, v, result, plain, distinct_of_get? distinct found, expanded, fun k => ?_⟩
    by_cases same : k = key
    · rw [if_pos same, same, Table.get?_put_self]
    · rw [if_neg same, if_neg same, Table.get?_put_other _ _ same]
  | @replaced group before after template v result copies isTemplate place copied gathers
      expanded =>
    subst place
    have kept : ∀ old, Table.get? group (before ++ after) = some old → old.Distinct := by
      intro old found
      rw [get?_without distinct.keys] at found
      split at found
      · cases found
      · exact distinct_of_get? distinct found
    have own := gathered_distinct kept (instantiate_distinct copied) gathers
    refine .inr ⟨group, v, result, Shape.group?_group isTemplate, own, expanded, fun k => ?_⟩
    rw [get?_placeGroup, get?_without distinct.keys]

theorem Treated.distinct {key : String} {members next : Members}
    (keeps : ∀ v result, v.Distinct → expand v = .ok result → result.Distinct)
    (distinct : (Value.obj members).Distinct)
    (treated : Treated mode shape expand key members next) : (Value.obj next).Distinct := by
  have nodup := treated.nodup distinct.keys
  refine .obj nodup fun entry member => ?_
  have found := Table.get?_of_mem nodup member
  rcases treated.lookup distinct with ⟨-, rfl⟩ | ⟨target, v, result, -, own, expanded, looked⟩
  · exact distinct.members entry member
  · rw [looked] at found
    split at found
    · cases found
      exact keeps v _ own expanded
    · split at found
      · cases found
      · exact distinct_of_get? distinct found

theorem Waiting.next {key : String} {rest : List String} {members next : Members}
    (settles : ∀ v result, v.Distinct → expand v = .ok result → Settled shape levels result)
    (waiting : Waiting shape levels (key :: rest) members)
    (treated : Treated mode shape expand key members next) : Waiting shape levels rest next := by
  have keeps : ∀ v result, v.Distinct → expand v = .ok result → result.Distinct :=
    fun v result own expanded => (settles v result own expanded).distinct
  refine ⟨treated.distinct keeps waiting.distinct, fun k v found => ?_⟩
  have other : k ≠ key → Table.get? k members = some v →
      k ∈ rest ∨ shape.group? k = none ∧ Settled shape levels v := fun differ old =>
    (waiting.treated k v old).imp_left fun among => (List.mem_cons.mp among).resolve_left differ
  rcases treated.lookup waiting.distinct with
    ⟨absent, rfl⟩ | ⟨target, w, result, plain, own, expanded, looked⟩
  · refine other ?_ found
    rintro rfl
    rw [Table.get?_eq_none absent] at found
    cases found
  · rw [looked] at found
    split at found
    · next here =>
      cases found
      exact .inr ⟨here ▸ plain, settles w _ own expanded⟩
    · split at found
      · cases found
      · next differ => exact other differ found

theorem expandKeys_waiting {keys : List String} {members last : Members}
    (settles : ∀ v result, v.Distinct → expand v = .ok result → Settled shape levels result)
    (waiting : Waiting shape levels keys members)
    (done : expandKeys mode shape expand keys members = .ok last) :
    Waiting shape levels [] last := by
  induction keys generalizing members with
  | nil =>
    cases done
    exact waiting
  | cons key rest ih =>
    obtain ⟨next, treated, later⟩ := expandKeys_treated done
    exact ih (waiting.next settles treated) later

theorem Waiting.settled {members : Members} (waiting : Waiting shape levels [] members) :
    Settled shape (levels + 1) (.obj members) := by
  have each : ∀ entry ∈ members,
      shape.group? entry.1 = none ∧ Settled shape levels entry.2 := fun entry member =>
    (waiting.treated entry.1 entry.2
      (Table.get?_of_mem waiting.distinct.keys member)).resolve_left List.not_mem_nil
  refine ⟨.obj ?_ fun entry member => (each entry member).2.untemplated, waiting.distinct, ?_⟩
  · exact List.forall_mem_map.mpr fun entry member => (each entry member).1
  · exact Nat.succ_le_succ
      (Json.membersDepth_le.mpr fun entry member => (each entry member).2.shallow)

/-- Whatever comes out of expansion is settled. -/
theorem expandWithin_settled {v result : Value} (distinct : v.Distinct)
    (done : expandWithin mode shape levels v = .ok result) : Settled shape levels result := by
  induction levels generalizing v result with
  | zero =>
    cases v with
    | arr items => cases done
    | obj members => cases done
    | _ =>
      cases done
      exact Settled.scalar rfl
  | succ levels ih =>
    cases v with
    | arr items =>
      rw [expandWithin] at done
      obtain ⟨results, inner, rfl⟩ := map_ok done
      have each : ∀ v ∈ results, Settled shape levels v := by
        intro v member
        obtain ⟨source, there, gives⟩ := forall₂_source (mapM_ok_iff.mp inner) v member
        exact ih (distinct.items source there) gives
      refine ⟨.arr fun v member => (each v member).untemplated,
        .arr fun v member => (each v member).distinct, ?_⟩
      exact Nat.succ_le_succ (Json.itemsDepth_le.mpr fun v member => (each v member).shallow)
    | obj members =>
      rw [expandWithin] at done
      obtain ⟨last, inner, rfl⟩ := map_ok done
      have begun : Waiting shape levels (Table.keys members) members :=
        ⟨distinct, fun key v found => .inl (List.mem_map_of_mem (Table.mem_of_get? found))⟩
      exact (expandKeys_waiting (fun _ _ own expanded => ih own expanded) begun inner).settled
    | _ =>
      cases done
      exact Settled.scalar rfl

/-- In a document that was expanded no key of an object, at any depth, is a template, and to expand
it again changes nothing. -/
theorem expandShape_settles (mode : Substitution) (shape : Shape) {v result : Value}
    (distinct : v.Distinct) (expands : Expands mode shape v result) :
    Untemplated shape result ∧ Expands mode shape result result := by
  obtain ⟨levels, done⟩ := expands_iff.mp expands
  have settled := expandWithin_settled distinct done
  exact ⟨settled.untemplated, expandShape_same mode shape settled.untemplated⟩

def templateOf (range : Value) (vars : Members) (content : Value) : Value :=
  .obj [(rangeKey, range), (varsKey, .obj vars), (contentKey, content)]

theorem templateOf_distinct {range content : Value} {vars : Members} (one : range.Distinct)
    (two : (Value.obj vars).Distinct) (three : content.Distinct) :
    (templateOf range vars content).Distinct := by
  refine .obj (by simp [Table.keys, rangeKey, varsKey, contentKey]) ?_
  exact List.forall_mem_cons.mpr ⟨one, List.forall_mem_cons.mpr
    ⟨two, List.forall_mem_singleton.mpr three⟩⟩

theorem lone_distinct (key : String) {v : Value} (own : v.Distinct) :
    (Value.obj [(key, v)]).Distinct :=
  .obj (List.nodup_singleton key) (List.forall_mem_singleton.mpr own)

theorem instantiate_templateOf (mode : Substitution) (key : String) {range : Value}
    {numbers : List Int} (counts : rangeOf range = .ok numbers) (vars : Members) (content : Value) :
    instantiate mode key (templateOf range vars content) =
      Template.copies mode ⟨numbers, vars, content⟩ := by
  have parts : Template.ofValue key (templateOf range vars content) =
      .ok ⟨numbers, vars, content⟩ := by
    simp [Template.ofValue, templateOf, Table.keys, Table.get?, rangeKey, varsKey, contentKey,
      counts, bind, Except.bind]
  rw [instantiate, parts]
  rfl

theorem expandWithin_lone {key group : String} {template v result : Value} {copies : List Value}
    (isTemplate : shape.group? key = some group)
    (copied : instantiate mode key template = .ok copies)
    (gathers : gathered shape key group none copies = .ok v)
    (expanded : expandWithin mode shape levels v = .ok result) :
    expandWithin mode shape (levels + 1) (.obj [(key, template)]) =
      .ok (.obj [(group, result)]) := by
  have replaced : replaceTemplate mode shape key group [] template [] = .ok [(group, v)] := by
    rw [replaceTemplate_eq, copied]
    simp only [bind, Except.bind, List.append_nil, Table.get?, gathers]
    rfl
  have changed : changeMember (expandWithin mode shape levels) group [(group, v)] =
      .ok [(group, result)] := by
    simp only [changeMember, Table.get?, ↓reduceIte, expanded, Except.map, Table.put]
  have first : expandKeys mode shape (expandWithin mode shape levels) [key] [(key, template)] =
      .ok [(group, result)] := by
    rw [expandKeys, isTemplate]
    simp only [Table.split?, ↓reduceIte, replaced, changed, Except.mapError, bind, Except.bind,
      expandKeys]
  have all : Table.keys [(key, template)] = [key] := rfl
  rw [expandWithin, all, first]
  rfl

end Levels

def seven : Value := .num (.integer ⟨7, by decide, by decide⟩)

theorem seven_distinct : seven.Distinct := .scalar rfl

theorem rangeOf_seven : rangeOf seven = .ok [7] := by
  rw [seven, rangeOf, rangeSet_eq]
  rfl

def innerTemplate : Value :=
  templateOf (.arr [seven, .arr [seven, seven]]) [("x", .str "p")] (.obj [("(^^x^^)", .null)])

def nestedTemplates : Value :=
  .obj [("{^^g^^}", templateOf seven [] (.obj [("{^^h^^}", innerTemplate)]))]

/-- A template that comes out of a template is expanded too. -/
theorem nestedTemplates_settle :
    nestedTemplates.Distinct ∧
      Expands .tree .object nestedTemplates (.obj [("g", .obj [("h", .obj [("p", .null)])])]) ∧
      Untemplated .object (.obj [("g", .obj [("h", .obj [("p", .null)])])]) ∧
      Expands .tree .object (.obj [("g", .obj [("h", .obj [("p", .null)])])])
        (.obj [("g", .obj [("h", .obj [("p", .null)])])]) := by
  have inner : instantiate .tree "{^^h^^}" innerTemplate = .ok [.obj [("p", .null)]] := by
    have counts : rangeOf (.arr [seven, .arr [seven, seven]]) = .ok [7] := by
      rw [rangeOf, rangeSet_eq]
      rfl
    rw [innerTemplate, instantiate_templateOf _ _ counts]
    rfl
  have outer : instantiate .tree "{^^g^^}"
      (templateOf seven [] (.obj [("{^^h^^}", innerTemplate)])) =
        .ok [.obj [("{^^h^^}", innerTemplate)]] := by
    have vars : Template.varsFor ⟨[7], [], .obj [("{^^h^^}", innerTemplate)]⟩ 7 =
        [("__range__", .str "7")] := by rfl
    have copy : replaceVariables .tree [("__range__", .str "7")]
        (.obj [("{^^h^^}", innerTemplate)]) = .ok (.obj [("{^^h^^}", innerTemplate)]) := by rfl
    rw [instantiate_templateOf _ _ rangeOf_seven, Template.copies, List.mapM_cons, vars, copy]
    rfl
  have group : Shape.object.group? "{^^g^^}" = some "g" := by decide
  have innerGroup : Shape.object.group? "{^^h^^}" = some "h" := by decide
  have last : expandWithin .tree .object 3 (.obj [("p", .null)]) = .ok (.obj [("p", .null)]) := by
    rfl
  have done : Expands .tree .object nestedTemplates
      (.obj [("g", .obj [("h", .obj [("p", .null)])])]) :=
    .of_within (expandWithin_lone group outer rfl (expandWithin_lone innerGroup inner rfl last))
  have distinct : nestedTemplates.Distinct := by
    have numbers : (Value.arr [seven, .arr [seven, seven]]).Distinct := by
      have pair : (Value.arr [seven, seven]).Distinct := .arr (by simp [seven_distinct])
      exact .arr (by simp [seven_distinct, pair])
    refine lone_distinct _
      (templateOf_distinct seven_distinct Json.empty_distinct (lone_distinct _ ?_))
    exact templateOf_distinct numbers (lone_distinct _ (.scalar rfl))
      (lone_distinct _ (.scalar rfl))
  exact ⟨distinct, done, expandShape_settles .tree .object distinct done⟩

end StructuredLog.Config
