import StructuredLog.Proofs.Config.Settling

/-!
What an object holds after its templates were expanded. A group of arrays has the items that stood
under its name and then the copies of all its templates, in order; a group of objects is the merge
of the copies of its last template; and every other member keeps its own value. In all of them what
is inside is expanded too.
-/

namespace StructuredLog.Config

open Json (Value Members)

def rangeItems : Value → List Value
  | .arr items => items
  | v => [v]

/-- The copies of a template. It is an object with a range, variables and a content, and with
nothing else; there is one copy for every number of the range, each where it comes first. -/
inductive Copies (mode : Substitution) : Value → List Value → Prop where
  | intro {parts vars : Members} {range content : Value} {numbers : List Int} {copies : List Value}
      (keys : ∀ key, key ∈ Table.keys parts ↔ key ∈ [rangeKey, varsKey, contentKey])
      (ranged : Table.get? rangeKey parts = some range)
      (counts : listNumbers (rangeItems range) = .ok numbers)
      (given : Table.get? varsKey parts = some (.obj vars))
      (filled : Table.get? contentKey parts = some content)
      (each : List.Forall₂
        (fun i copy => replaceVariables mode
          (Table.put rangeKey (.str (String.ofList (Json.intText i))) vars) content = .ok copy)
        numbers.eraseDups copies) :
      Copies mode (.obj parts) copies

def templatesFor (shape : Shape) (group : String) (members : Members) : Members :=
  members.filter fun entry => shape.group? entry.1 = some group

/-- What a group holds whose name stood for `now` before, if for anything. -/
inductive Grouped (mode : Substitution) (now : Option Value) : Shape → Members → Value → Prop where
  | array {literal items : List Value} {templates : Members} {copies : List (List Value)}
      (stood : now = none ∧ literal = [] ∨ now = some (.arr literal))
      (each : List.Forall₂ (fun entry own => Copies mode entry.2 own) templates copies)
      (expanded : List.Forall₂ (Expands mode .array) (literal ++ copies.flatten) items) :
      Grouped mode now .array templates (.arr items)
  | object {earlier : Members} {key : String} {template result : Value} {objects : List Members}
      (last : Copies mode template (objects.map .obj))
      (expanded : Expands mode .object (.obj (objects.foldl (mergeMembers true) [])) result) :
      Grouped mode now .object (earlier ++ [(key, template)]) result

structure MembersExpanded (mode : Substitution) (shape : Shape) (members result : Members) :
    Prop where
  templates : ∀ entry ∈ members, shape.group? entry.1 ≠ none →
    ∃ copies, Copies mode entry.2 copies
  groups : ∀ group, templatesFor shape group members ≠ [] →
    ∃ v, Grouped mode (Table.get? group members) shape (templatesFor shape group members) v ∧
      Table.get? group result = some v
  others : ∀ key v, Table.get? key members = some v → shape.group? key = none →
    templatesFor shape key members = [] →
      ∃ w, Expands mode shape v w ∧ Table.get? key result = some w
  only : ∀ key ∈ Table.keys result, templatesFor shape key members ≠ [] ∨
    shape.group? key = none ∧ key ∈ Table.keys members

section Levels

variable {mode : Substitution} {shape : Shape} {levels : Nat}

theorem Expands.unique {v first second : Value} (one : Expands mode shape v first)
    (two : Expands mode shape v second) : first = second := by
  exact Except.ok.inj (Option.some.inj (one.symm.trans two))

theorem Expands.again {v result : Value} (distinct : v.Distinct)
    (expands : Expands mode shape v result) : Expands mode shape result result :=
  (expandShape_settles mode shape distinct expands).2

theorem expandWithin_arr {items : List Value} {result : Value}
    (done : expandWithin mode shape levels (.arr items) = .ok result) :
    ∃ results, result = .arr results ∧ List.Forall₂ (Expands mode shape) items results := by
  cases levels with
  | zero => cases done
  | succ levels =>
    rw [expandWithin] at done
    obtain ⟨results, inner, rfl⟩ := map_ok done
    exact ⟨results, rfl, (mapM_ok_iff.mp inner).imp fun _ _ own => .of_within own⟩

theorem expandWithin_eq_arr {v : Value} {results : List Value}
    (done : expandWithin mode shape levels v = .ok (.arr results)) :
    ∃ items, v = .arr items ∧ List.Forall₂ (Expands mode shape) items results := by
  cases v with
  | arr items =>
    obtain ⟨_, same, each⟩ := expandWithin_arr done
    cases same
    exact ⟨items, rfl, each⟩
  | obj members =>
    cases levels with
    | zero => cases done
    | succ levels =>
      rw [expandWithin] at done
      obtain ⟨last, -, same⟩ := map_ok done
      cases same
  | _ => cases levels <;> cases done

/-- Items that were expanded before may be expanded once more. -/
theorem forall₂_expands_append {first between second results : List Value}
    (distinct : ∀ v ∈ first, v.Distinct) (before : List.Forall₂ (Expands mode shape) first between)
    (after : List.Forall₂ (Expands mode shape) (between ++ second) results) :
    List.Forall₂ (Expands mode shape) (first ++ second) results := by
  induction before generalizing results with
  | nil => exact after
  | cons own later ih =>
    rw [List.forall_mem_cons] at distinct
    rw [List.cons_append] at after
    cases after with
    | cons again rest =>
      have same := again.unique (own.again distinct.1)
      exact .cons (same ▸ own) (ih distinct.2 rest)

end Levels

theorem rangeOf_ok {range : Value} {numbers : List Int} (counts : rangeOf range = .ok numbers) :
    ∃ all, listNumbers (rangeItems range) = .ok all ∧ numbers = all.eraseDups := by
  cases range with
  | num n =>
    rw [rangeOf, rangeSet_eq] at counts
    obtain ⟨all, listed, same⟩ := map_ok counts
    exact ⟨all, listed, same.symm⟩
  | arr items =>
    rw [rangeOf, rangeSet_eq] at counts
    obtain ⟨all, listed, same⟩ := map_ok counts
    exact ⟨all, listed, same.symm⟩
  | _ => cases counts

theorem part_ok {error : Error} {name : String} {parts : Members} {v : Value}
    (found : (match Table.get? name parts with
      | some v => Except.ok v
      | none => Except.error error) = .ok v) : Table.get? name parts = some v := by
  split at found
  · next under =>
    cases found
    exact under
  · cases found

theorem instantiate_copies {mode : Substitution} {key : String} {v : Value} {copies : List Value}
    (copied : instantiate mode key v = .ok copies) : Copies mode v copies := by
  obtain ⟨t, parsed, made⟩ := bind_ok copied
  cases v with
  | obj parts =>
    rw [Template.ofValue] at parsed
    split at parsed
    · cases parsed
    · next known =>
      obtain ⟨range, ranged, parsed⟩ := bind_ok parsed
      obtain ⟨numbers, counts, parsed⟩ := bind_ok parsed
      obtain ⟨given, named, parsed⟩ := bind_ok parsed
      cases given with
      | obj vars =>
        obtain ⟨_, same, parsed⟩ := bind_ok parsed
        cases same
        obtain ⟨content, filled, same⟩ := bind_ok parsed
        cases same
        obtain ⟨all, listed, rfl⟩ := rangeOf_ok counts
        have ranged := part_ok ranged
        have named := part_ok named
        have filled := part_ok filled
        refine .intro ?_ ranged listed named filled (mapM_ok_iff.mp made)
        intro name
        constructor
        · intro member
          have fine := List.find?_eq_none.mp known name member
          simpa only [decide_not, Bool.not_eq_true', Bool.not_eq_false, decide_eq_true_eq,
            decide_eq_false_iff_not, Decidable.not_not] using fine
        · simp only [List.mem_cons, List.not_mem_nil, or_false]
          rintro (rfl | rfl | rfl)
          · exact Table.mem_keys_iff.mpr ⟨_, ranged⟩
          · exact Table.mem_keys_iff.mpr ⟨_, named⟩
          · exact Table.mem_keys_iff.mpr ⟨_, filled⟩
      | _ =>
        obtain ⟨_, same, -⟩ := bind_ok parsed
        cases same
  | _ => cases parsed

theorem mergeCopies_ok {key : String} {copies : List Value} {before merged : Members}
    (done : mergeCopies key before copies = .ok merged) :
    ∃ objects : List Members, copies = objects.map .obj ∧
      merged = objects.foldl (mergeMembers true) before := by
  induction copies generalizing before with
  | nil =>
    cases done
    exact ⟨[], rfl, rfl⟩
  | cons v rest ih =>
    cases v with
    | obj members =>
      obtain ⟨objects, same, rfl⟩ := ih done
      exact ⟨members :: objects, by rw [same]; rfl, rfl⟩
    | _ => cases done

/-- What becomes of the value under one key, which is no template, while the entries of an object
are treated one after another. -/
inductive Follows (mode : Substitution) (shape : Shape) (expand : Value → Attempt Value)
    (key : String) : Members → Option Value → Option Value → Prop where
  | nil (now : Option Value) : Follows mode shape expand key [] now now
  | own {v w result : Value} {rest : Members} {last : Option Value}
      (plain : shape.group? key = none) (expanded : expand v = .ok result)
      (later : Follows mode shape expand key rest (some result) last) :
      Follows mode shape expand key ((key, w) :: rest) (some v) last
  | grouped {template : String} {value v result : Value} {copies : List Value} {rest : Members}
      {now last : Option Value} (isTemplate : shape.group? template = some key)
      (copied : instantiate mode template value = .ok copies)
      (gathers : gathered shape template key now copies = .ok v)
      (expanded : expand v = .ok result)
      (later : Follows mode shape expand key rest (some result) last) :
      Follows mode shape expand key ((template, value) :: rest) now last
  | passed {entry : String × Value} {rest : Members} {now last : Option Value}
      (differ : entry.1 ≠ key) (apart : shape.group? entry.1 ≠ some key)
      (later : Follows mode shape expand key rest now last) :
      Follows mode shape expand key (entry :: rest) now last

section Following

variable {mode : Substitution} {shape : Shape} {expand : Value → Attempt Value} {key : String}

/-- Every entry that waits is still there, and templates are as they were. -/
structure Pending (shape : Shape) (entries now : Members) : Prop where
  nodup : (Table.keys entries).Nodup
  there : ∀ entry ∈ entries, entry.1 ∈ Table.keys now
  untouched : ∀ entry ∈ entries, shape.group? entry.1 ≠ none →
    Table.get? entry.1 now = some entry.2

theorem Pending.next {entry : String × Value} {rest now next : Members}
    (distinct : (Value.obj now).Distinct) (pending : Pending shape (entry :: rest) now)
    (treated : Treated mode shape expand entry.1 now next) : Pending shape rest next := by
  have nodup := List.nodup_cons.mp pending.nodup
  have differs : ∀ other ∈ rest, other.1 ≠ entry.1 := fun other member same =>
    nodup.1 (same ▸ List.mem_map_of_mem member)
  rcases treated.lookup distinct with ⟨-, rfl⟩ | ⟨target, v, result, plain, -, -, looked⟩
  · exact ⟨nodup.2, fun other member => pending.there other (List.mem_cons_of_mem _ member),
      fun other member => pending.untouched other (List.mem_cons_of_mem _ member)⟩
  · refine ⟨nodup.2, fun other member => ?_, fun other member isTemplate => ?_⟩
    · have before := pending.there other (List.mem_cons_of_mem _ member)
      rw [← Table.has_eq_true, Table.has] at before ⊢
      rw [looked, if_neg (differs other member)]
      split
      · rfl
      · exact before
    · have away : other.1 ≠ target := by
        rintro rfl
        exact isTemplate plain
      rw [looked, if_neg away, if_neg (differs other member)]
      exact pending.untouched other (List.mem_cons_of_mem _ member) isTemplate

/-- The treatment of all entries, as it is seen under one key. -/
theorem expandKeys_follows
    (keeps : ∀ v result, v.Distinct → expand v = .ok result → result.Distinct)
    (plain : shape.group? key = none) {entries now last : Members}
    (distinct : (Value.obj now).Distinct) (pending : Pending shape entries now)
    (done : expandKeys mode shape expand (Table.keys entries) now = .ok last) :
    Follows mode shape expand key entries (Table.get? key now) (Table.get? key last) := by
  induction entries generalizing now with
  | nil =>
    cases done
    exact .nil _
  | cons entry rest ih =>
    obtain ⟨next, treated, later⟩ := expandKeys_treated done
    have others := ih (treated.distinct keeps distinct) (pending.next distinct treated) later
    rcases entry with ⟨k, w⟩
    cases treated with
    | absent absent => exact absurd (pending.there (k, w) List.mem_cons_self) absent
    | @changed v result own found expanded =>
      by_cases same : k = key
      · subst same
        rw [Table.get?_put_self] at others
        rw [found]
        exact .own own expanded others
      · rw [Table.get?_put_other _ _ (fun equal => same equal.symm)] at others
        refine .passed same ?_ others
        rw [own]
        exact fun none => by cases none
    | @replaced group before after template v result copies isTemplate place copied gathers
        expanded =>
      subst place
      have original := pending.untouched (k, w) List.mem_cons_self
        (isTemplate ▸ Option.some_ne_none group)
      have stood := Table.get?_of_mem distinct.keys
        (List.mem_append_right before (List.mem_cons_self (a := (k, template)) (l := after)))
      rw [original] at stood
      cases stood
      have differ : key ≠ k := by
        rintro rfl
        rw [plain] at isTemplate
        cases isTemplate
      rw [get?_placeGroup, get?_without distinct.keys, if_neg differ] at others
      split at others
      · next same =>
        subst same
        rw [get?_without distinct.keys, if_neg differ] at gathers
        exact .grouped isTemplate copied gathers expanded others
      · next away =>
        refine .passed differ.symm ?_ others
        rw [isTemplate]
        exact fun equal => away (Option.some.inj equal).symm

end Following

section Groups

variable {mode : Substitution} {shape : Shape} {levels : Nat} {key : String}

theorem templatesFor_cons_self {template : String} (value : Value) (rest : Members)
    (isTemplate : shape.group? template = some key) :
    templatesFor shape key ((template, value) :: rest) =
      (template, value) :: templatesFor shape key rest :=
  List.filter_cons_of_pos (decide_eq_true isTemplate)

theorem templatesFor_cons_other {entry : String × Value} (rest : Members)
    (apart : shape.group? entry.1 ≠ some key) :
    templatesFor shape key (entry :: rest) = templatesFor shape key rest :=
  List.filter_cons_of_neg (by simpa using apart)

theorem templatesFor_cons_plain {other : String} (value : Value) (rest : Members)
    (plain : shape.group? other = none) :
    templatesFor shape key ((other, value) :: rest) = templatesFor shape key rest := by
  apply templatesFor_cons_other
  rw [plain]
  exact (Option.some_ne_none key).symm

theorem Follows.alone {expand : Value → Attempt Value} {entries : Members}
    {now last : Option Value} (nodup : (Table.keys entries).Nodup)
    (follows : Follows mode shape expand key entries now last)
    (none : templatesFor shape key entries = []) :
    (key ∈ Table.keys entries ∧
        ∃ v result, now = some v ∧ expand v = .ok result ∧ last = some result) ∨
      key ∉ Table.keys entries ∧ last = now := by
  induction follows with
  | nil now => exact .inr ⟨List.not_mem_nil, rfl⟩
  | @own v w result rest last plain expanded later ih =>
    have apart := List.nodup_cons.mp nodup
    rw [templatesFor_cons_plain w rest plain] at none
    rcases ih apart.2 none with ⟨again, -⟩ | ⟨-, rfl⟩
    · exact absurd again apart.1
    · exact .inl ⟨List.mem_cons_self, v, result, rfl, expanded, rfl⟩
  | grouped isTemplate copied gathers expanded later ih =>
    rw [templatesFor_cons_self _ _ isTemplate] at none
    cases none
  | @passed entry rest now last differ apart later ih =>
    rw [templatesFor_cons_other rest apart] at none
    rcases ih (List.nodup_cons.mp nodup).2 none with ⟨among, held⟩ | ⟨absent, same⟩
    · exact .inl ⟨List.mem_cons_of_mem _ among, held⟩
    · refine .inr ⟨?_, same⟩
      exact List.not_mem_cons_of_ne_of_not_mem differ.symm absent

theorem Follows.rest {entries : Members} {v result : Value} {last : Option Value}
    (nodup : (Table.keys entries).Nodup) (distinct : v.Distinct)
    (expanded : expandWithin mode shape levels v = .ok result)
    (follows : Follows mode shape (expandWithin mode shape levels) key entries (some result) last)
    (none : templatesFor shape key entries = []) : last = some result := by
  rcases follows.alone nodup none with ⟨-, _, again, same, twice, rfl⟩ | ⟨-, rfl⟩
  · cases same
    rw [(expandWithin_settled distinct expanded).same] at twice
    cases twice
    rfl
  · rfl

/-- The items that stood under the name of a group and the copies of all its templates, in order. -/
theorem Follows.arrays {entries : Members} {now last : Option Value}
    (nodup : (Table.keys entries).Nodup) (distinct : ∀ v, now = some v → v.Distinct)
    (follows : Follows mode .array (expandWithin mode .array levels) key entries now last)
    (nonempty : templatesFor .array key entries ≠ []) :
    ∃ v, Grouped mode now .array (templatesFor .array key entries) v ∧ last = some v := by
  induction follows with
  | nil now => exact absurd rfl nonempty
  | @own v w result rest last plain expanded later ih =>
    rw [templatesFor_cons_plain w rest plain] at nonempty ⊢
    have settled := expandWithin_settled (distinct v rfl) expanded
    obtain ⟨final, grouped, rfl⟩ := ih (List.nodup_cons.mp nodup).2
      (fun _ same => by cases same; exact settled.distinct) nonempty
    cases grouped with
    | @array literal items _ copies stood each all =>
      rcases stood with ⟨none, -⟩ | same
      · cases none
      · cases same
        obtain ⟨before, rfl, once⟩ := expandWithin_eq_arr expanded
        have items := forall₂_expands_append (distinct _ rfl).items once all
        exact ⟨_, .array (.inr rfl) each items, rfl⟩
  | @grouped template value v result copies rest now last isTemplate copied gathers expanded later
      ih =>
    rw [templatesFor_cons_self _ _ isTemplate]
    have own := instantiate_copies copied
    have made := gathered_distinct distinct (instantiate_distinct copied) gathers
    have settled := expandWithin_settled made expanded
    -- The copies stand behind what was there, and are expanded with it.
    obtain ⟨literal, stood, rfl⟩ : ∃ literal, (now = none ∧ literal = [] ∨
        now = some (.arr literal)) ∧ v = .arr (literal ++ copies) := by
      simp only [gathered] at gathers
      split at gathers
      · cases gathers
        exact ⟨[], .inl ⟨rfl, rfl⟩, rfl⟩
      · cases gathers
        exact ⟨_, .inr rfl, rfl⟩
      · cases gathers
    obtain ⟨results, rfl, once⟩ := expandWithin_arr expanded
    by_cases none : templatesFor .array key rest = []
    · rw [later.rest (List.nodup_cons.mp nodup).2 made expanded none, none]
      refine ⟨_, .array stood (.cons own .nil) ?_, rfl⟩
      rw [List.flatten_singleton]
      exact once
    · obtain ⟨final, grouped, rfl⟩ := ih (List.nodup_cons.mp nodup).2
        (fun _ same => by cases same; exact settled.distinct) none
      cases grouped with
      | @array between items _ others stands each all =>
        rcases stands with ⟨none, -⟩ | same
        · cases none
        · cases same
          have items := forall₂_expands_append made.items once all
          rw [List.append_assoc] at items
          exact ⟨_, .array stood (.cons own each) items, rfl⟩
  | @passed entry rest now last differ apart later ih =>
    rw [templatesFor_cons_other rest apart] at nonempty ⊢
    exact ih (List.nodup_cons.mp nodup).2 distinct nonempty

/-- The merge of the copies of the last template for a group. -/
theorem Follows.objects {entries : Members} {now last : Option Value}
    (nodup : (Table.keys entries).Nodup)
    (follows : Follows mode .object (expandWithin mode .object levels) key entries now last)
    (initial : Option Value)
    (nonempty : templatesFor .object key entries ≠ []) :
    ∃ v, Grouped mode initial .object (templatesFor .object key entries) v ∧ last = some v := by
  induction follows with
  | nil now => exact absurd rfl nonempty
  | @own v w result rest last plain expanded later ih =>
    rw [templatesFor_cons_plain w rest plain] at nonempty ⊢
    exact ih (List.nodup_cons.mp nodup).2 nonempty
  | @grouped template value v result copies rest now last isTemplate copied gathers expanded later
      ih =>
    rw [templatesFor_cons_self _ _ isTemplate]
    by_cases none : templatesFor .object key rest = []
    · have each := instantiate_distinct copied
      obtain ⟨merged, done, rfl⟩ := map_ok gathers
      have made := mergeCopies_distinct each Json.empty_distinct done
      rw [later.rest (List.nodup_cons.mp nodup).2 made expanded none, none]
      obtain ⟨objects, rfl, rfl⟩ := mergeCopies_ok done
      have only : Grouped mode initial .object ([] ++ [(template, value)]) result :=
        .object (instantiate_copies copied) (Expands.of_within expanded)
      exact ⟨result, only, rfl⟩
    · obtain ⟨final, grouped, rfl⟩ := ih (List.nodup_cons.mp nodup).2 none
      refine ⟨final, ?_, rfl⟩
      generalize templatesFor .object key rest = others at grouped ⊢
      cases grouped with
      | @object earlier name other _ objects final expanded =>
        rw [← List.cons_append]
        exact .object final expanded
  | @passed entry rest now last differ apart later ih =>
    rw [templatesFor_cons_other rest apart] at nonempty ⊢
    exact ih (List.nodup_cons.mp nodup).2 nonempty

theorem Follows.copied {expand : Value → Attempt Value} {entries : Members}
    {now last : Option Value} (follows : Follows mode shape expand key entries now last) :
    ∀ entry ∈ entries, shape.group? entry.1 = some key → ∃ copies, Copies mode entry.2 copies := by
  induction follows with
  | nil now => exact List.forall_mem_nil _
  | own plain expanded later ih =>
    refine List.forall_mem_cons.mpr ⟨fun isTemplate => ?_, ih⟩
    rw [plain] at isTemplate
    cases isTemplate
  | grouped isTemplate copied gathers expanded later ih =>
    exact List.forall_mem_cons.mpr ⟨fun _ => ⟨_, instantiate_copies copied⟩, ih⟩
  | passed differ apart later ih =>
    exact List.forall_mem_cons.mpr ⟨fun isTemplate => absurd isTemplate apart, ih⟩

/-- What an object holds after the templates of one shape were expanded. -/
theorem expansion_members {members : Members} {v : Value} (distinct : (Value.obj members).Distinct)
    (expands : Expands mode shape (.obj members) v) :
    ∃ result, v = .obj result ∧ MembersExpanded mode shape members result := by
  obtain ⟨levels, done⟩ := expands_iff.mp expands
  cases levels with
  | zero => cases done
  | succ levels =>
    have settled := expandWithin_settled distinct done
    rw [expandWithin] at done
    obtain ⟨result, inner, rfl⟩ := map_ok done
    refine ⟨result, rfl, ?_⟩
    have keeps : ∀ v result, v.Distinct → expandWithin mode shape levels v = .ok result →
        result.Distinct := fun v result own expanded => (expandWithin_settled own expanded).distinct
    have pending : Pending shape members members :=
      ⟨distinct.keys, fun entry member => List.mem_map_of_mem member,
        fun entry member _ => Table.get?_of_mem distinct.keys member⟩
    have follows : ∀ key, shape.group? key = none →
        Follows mode shape (expandWithin mode shape levels) key members
          (Table.get? key members) (Table.get? key result) := fun key plain =>
      expandKeys_follows keeps plain distinct pending inner
    have grouping : ∀ key, templatesFor shape key members ≠ [] → shape.group? key = none := by
      intro key nonempty
      obtain ⟨entry, member⟩ := List.exists_mem_of_ne_nil _ nonempty
      exact Shape.group?_group (of_decide_eq_true (List.mem_filter.mp member).2)
    refine ⟨?_, ?_, ?_, ?_⟩
    · intro entry member isTemplate
      obtain ⟨group, named⟩ := Option.ne_none_iff_exists'.mp isTemplate
      exact (follows group (Shape.group?_group named)).copied entry member named
    · intro group nonempty
      have follow := follows group (grouping group nonempty)
      cases shape with
      | object => exact follow.objects distinct.keys _ nonempty
      | array => exact follow.arrays distinct.keys (fun _ => distinct_of_get? distinct) nonempty
    · intro key v found plain none
      rcases (follows key plain).alone distinct.keys none with
        ⟨-, w, final, stood, expanded, last⟩ | ⟨absent, -⟩
      · rw [found] at stood
        cases stood
        exact ⟨final, .of_within expanded, last⟩
      · exact absurd (Table.mem_keys_iff.mpr ⟨v, found⟩) absent
    · intro key member
      have plain := settled.untemplated.keys key member
      by_cases none : templatesFor shape key members = []
      · rcases (follows key plain).alone distinct.keys none with ⟨among, -⟩ | ⟨absent, same⟩
        · exact .inr ⟨plain, among⟩
        · obtain ⟨w, found⟩ := Table.mem_keys_iff.mp member
          rw [same, Table.get?_eq_none absent] at found
          cases found
      · exact .inl none

end Groups

def sharedGroup : Members :=
  [("a[^^xs^^]", templateOf (.arr [seven, seven]) [("x", .str "p")] (.str "(^^x^^)")),
    ("xs", .arr [.null]), ("b[^^xs^^]", templateOf seven [] (.arr [.str "q"]))]

/-- What stood there comes first, then the copies of both templates. -/
theorem sharedGroup_expanded :
    (Value.obj sharedGroup).Distinct ∧
      Expands .tree .array (.obj sharedGroup)
        (.obj [("xs", .arr [.null, .str "p", .arr [.str "q"]])]) ∧
      MembersExpanded .tree .array sharedGroup
        [("xs", .arr [.null, .str "p", .arr [.str "q"]])] := by
  have repeats : rangeOf (.arr [seven, seven]) = .ok [7] := by
    rw [rangeOf, rangeSet_eq]
    rfl
  have first : instantiate .tree "a[^^xs^^]"
      (templateOf (.arr [seven, seven]) [("x", .str "p")] (.str "(^^x^^)")) = .ok [.str "p"] := by
    rw [instantiate_templateOf _ _ repeats]
    rfl
  have second : instantiate .tree "b[^^xs^^]" (templateOf seven [] (.arr [.str "q"])) =
      .ok [.arr [.str "q"]] := by
    rw [instantiate_templateOf _ _ rangeOf_seven]
    rfl
  have groups : Shape.array.group? "a[^^xs^^]" = some "xs" ∧
      Shape.array.group? "b[^^xs^^]" = some "xs" ∧ Shape.array.group? "xs" = none := by decide
  have done : expandWithin .tree .array 3 (.obj sharedGroup) =
      .ok (.obj [("xs", .arr [.null, .str "p", .arr [.str "q"]])]) := by
    simp [sharedGroup, expandWithin, expandKeys, Table.keys, groups, Table.split?,
      replaceTemplate_eq, first, second, gathered, placeGroup, Table.has, Table.get?, changeMember,
      Table.put, bind, Except.bind, Except.map, Except.mapError,
      pure, Except.pure]
  have distinct : (Value.obj sharedGroup).Distinct := by
    refine .obj (by decide) ?_
    simp only [sharedGroup, List.forall_mem_cons]
    refine ⟨templateOf_distinct ?_ (lone_distinct _ (.scalar rfl)) (.scalar rfl), ?_,
      templateOf_distinct seven_distinct Json.empty_distinct ?_, List.forall_mem_nil _⟩
    · exact .arr (by simp [seven_distinct])
    · exact .arr (List.forall_mem_singleton.mpr (.scalar rfl))
    · exact .arr (List.forall_mem_singleton.mpr (.scalar rfl))
  obtain ⟨result, same, expanded⟩ := expansion_members distinct (.of_within done)
  cases same
  exact ⟨distinct, .of_within done, expanded⟩

end StructuredLog.Config
