import StructuredLog.Proofs.Config.Depth
import StructuredLog.Proofs.Config.FixedPoint

/-!
Expansion calls itself: on the items of an array, on the members of an object and on what is put in
the place of a template. Inside strings each of these has a level less than the document it is
called for. So there expansion comes to an end, and it is the only function that calls itself in
this way.
-/

namespace StructuredLog.Config

open Json (Value Members membersDepth membersDepth_le)

/-- Expansion of one document, where `expand` is what it calls itself for. -/
def expandOnce (mode : Substitution) (shape : Shape) (expand : Value → Attempt Value) :
    Value → Attempt Value
  | .obj members => (expandKeys mode shape expand (Table.keys members) members).map .obj
  | .arr items => (items.mapM expand).map .arr
  | v => .ok v

/-- A value that is expanded when a key of an object is treated: the value under a key that is no
template, or what a template is replaced by. -/
inductive Visit (mode : Substitution) (shape : Shape) (key : String) (members : Members) :
    Value → Prop where
  | member {v : Value} (plain : shape.group? key = none)
      (found : Table.get? key members = some v) : Visit mode shape key members v
  | group {group : String} {before after : Members} {template v : Value} {copies : List Value}
      (isTemplate : shape.group? key = some group)
      (place : Table.split? key members = some (before, template, after))
      (copied : instantiate mode key template = .ok copies)
      (gathers : gathered shape key group (Table.get? group (before ++ after)) copies = .ok v) :
      Visit mode shape key members v

inductive Visits (mode : Substitution) (shape : Shape) (expand : Value → Attempt Value) :
    List String → Members → Value → Prop where
  | here {key : String} {rest : List String} {members : Members} {v : Value}
      (visit : Visit mode shape key members v) :
      Visits mode shape expand (key :: rest) members v
  | later {key : String} {rest : List String} {members next : Members} {v : Value}
      (treated : Treated mode shape expand key members next)
      (visits : Visits mode shape expand rest next v) :
      Visits mode shape expand (key :: rest) members v

/-- The expansion of the first document calls that of the second. -/
inductive Calls (mode : Substitution) (shape : Shape) (expand : Value → Attempt Value) :
    Value → Value → Prop where
  | item {items : List Value} {v : Value} (member : v ∈ items) :
      Calls mode shape expand (.arr items) v
  | member {members : Members} {v : Value}
      (visits : Visits mode shape expand (Table.keys members) members v) :
      Calls mode shape expand (.obj members) v

section Conclusions

variable {α β : Type}

def Concluded (attempt : Attempt α) : Prop := attempt ≠ .error none

theorem Concluded.ok (a : α) : Concluded (.ok a) := by
  intro same
  cases same

theorem Concluded.mapError (outcome : Except Error α) : Concluded (outcome.mapError some) := by
  cases outcome <;> intro same <;> cases same

theorem Concluded.bind {first : Attempt α} {next : α → Attempt β} (own : Concluded first)
    (later : ∀ a, first = .ok a → Concluded (next a)) : Concluded (first >>= next) := by
  cases first with
  | error error =>
    intro same
    cases same
    exact own rfl
  | ok a => exact later a rfl

theorem Concluded.map {first : Attempt α} (own : Concluded first) (next : α → β) :
    Concluded (first.map next) := own.bind fun a _ => .ok (next a)

theorem Concluded.mapM {f : α → Attempt β} {items : List α}
    (each : ∀ a ∈ items, Concluded (f a)) : Concluded (items.mapM f) := by
  induction items with
  | nil => exact .ok []
  | cons a rest ih =>
    rw [List.forall_mem_cons] at each
    rw [List.mapM_cons]
    exact each.1.bind fun b _ => (ih each.2).bind fun others _ => .ok (b :: others)

end Conclusions

section Keys

variable {mode : Substitution} {shape : Shape} {expand other : Value → Attempt Value}
  {key group : String} {members : Members}

theorem expandKeys_cons (key : String) (rest : List String) (members : Members) :
    expandKeys mode shape expand (key :: rest) members =
      (expandKeys mode shape expand [key] members >>= expandKeys mode shape expand rest) := by
  rw [expandKeys, expandKeys]
  cases shape.group? key with
  | none => cases changeMember expand key members <;> rfl
  | some group =>
    simp only
    cases Table.split? key members with
    | none => rfl
    | some parts =>
      rcases parts with ⟨before, template, after⟩
      simp only
      cases replaceTemplate mode shape key group before template after with
      | error error => rfl
      | ok placed =>
        simp only [Except.mapError, bind, Except.bind]
        cases changeMember expand group placed <;> rfl

theorem treated_of_key {next : Members}
    (done : expandKeys mode shape expand [key] members = .ok next) :
    Treated mode shape expand key members next := by
  obtain ⟨last, treated, same⟩ := expandKeys_treated done
  cases same
  exact treated

theorem expandKeys_template (isTemplate : shape.group? key = some group)
    {before after : Members} {template : Value}
    (place : Table.split? key members = some (before, template, after)) :
    expandKeys mode shape expand [key] members =
      (((instantiate mode key template).bind
        (gathered shape key group (Table.get? group (before ++ after)))).mapError some).bind
          fun v => (expand v).map (placeGroup before after group) := by
  rw [expandKeys, isTemplate]
  simp only [place, replaceTemplate_eq]
  cases instantiate mode key template with
  | error error => rfl
  | ok copies =>
    simp only [Except.mapError, bind, Except.bind]
    cases gathered shape key group (Table.get? group (before ++ after)) copies with
    | error error => rfl
    | ok v =>
      have under := get?_placeGroup before after group v group
      rw [if_pos rfl] at under
      simp only [changeMember, under]
      cases expand v with
      | error error => rfl
      | ok result => simp only [Except.map, put_placeGroup, expandKeys]

theorem expandKeys_plain (plain : shape.group? key = none) :
    expandKeys mode shape expand [key] members = changeMember expand key members := by
  rw [expandKeys, plain]
  simp only
  cases changeMember expand key members <;> rfl

theorem expandKeys_missing (isTemplate : shape.group? key = some group)
    (missing : Table.split? key members = none) :
    expandKeys mode shape expand [key] members = .ok members := by
  rw [expandKeys, isTemplate]
  simp only [missing]
  rfl

/-- To treat a key is to ask for the expansion of one value and to put the result in, or to ask for
none. -/
theorem expandKey_asks (mode : Substitution) (shape : Shape) (key : String) (members : Members) :
    (∃ v put, Visit mode shape key members v ∧
      ∀ expand, expandKeys mode shape expand [key] members = (expand v).map put) ∨
      ∃ outcome, Concluded outcome ∧
        ∀ expand, expandKeys mode shape expand [key] members = outcome := by
  cases isTemplate : shape.group? key with
  | none =>
    cases found : Table.get? key members with
    | none =>
      refine .inr ⟨.ok members, .ok members, fun expand => ?_⟩
      rw [expandKeys_plain isTemplate, changeMember, found]
    | some v =>
      refine .inl ⟨v, fun result => Table.put key result members, .member isTemplate found, ?_⟩
      intro expand
      rw [expandKeys_plain isTemplate, changeMember, found]
  | some group =>
    cases place : Table.split? key members with
    | none =>
      refine .inr ⟨.ok members, .ok members, fun expand => ?_⟩
      exact expandKeys_missing isTemplate place
    | some parts =>
      rcases parts with ⟨before, template, after⟩
      have treats := fun expand : Value → Attempt Value =>
        @expandKeys_template mode shape expand key group members isTemplate before after template
          place
      cases made : (instantiate mode key template).bind
          (gathered shape key group (Table.get? group (before ++ after))) with
      | error error =>
        refine .inr ⟨.error (some error), .mapError (.error error), fun expand => ?_⟩
        rw [treats, made]
        rfl
      | ok v =>
        obtain ⟨copies, copied, gathers⟩ := bind_ok made
        refine .inl ⟨v, placeGroup before after group, ?_, fun expand => ?_⟩
        · exact .group isTemplate place copied gathers
        · rw [treats, made]
          rfl

theorem expandKey_congr (same : ∀ v, Visit mode shape key members v → expand v = other v) :
    expandKeys mode shape expand [key] members = expandKeys mode shape other [key] members := by
  rcases expandKey_asks mode shape key members with ⟨v, put, visit, asks⟩ | ⟨outcome, -, asks⟩
  · rw [asks, asks, same v visit]
  · rw [asks, asks]

theorem bind_ok_congr {α β : Type} {first : Attempt α} {next later : α → Attempt β}
    (same : ∀ a, first = .ok a → next a = later a) : (first >>= next) = (first >>= later) := by
  cases first with
  | error error => rfl
  | ok a => exact same a rfl

theorem expandKey_concluded (each : ∀ v, Visit mode shape key members v → Concluded (expand v)) :
    Concluded (expandKeys mode shape expand [key] members) := by
  rcases expandKey_asks mode shape key members with ⟨v, put, visit, asks⟩ | ⟨outcome, fixed, asks⟩
  · rw [asks]
    exact (each v visit).map put
  · rw [asks]
    exact fixed

theorem expandKeys_concluded {keys : List String}
    (each : ∀ v, Visits mode shape expand keys members v → Concluded (expand v)) :
    Concluded (expandKeys mode shape expand keys members) := by
  induction keys generalizing members with
  | nil => exact .ok members
  | cons key rest ih =>
    rw [expandKeys_cons]
    refine (expandKey_concluded fun v visit => each v (.here visit)).bind fun next done => ?_
    exact ih fun v visits => each v (.later (treated_of_key done) visits)

theorem expandKeys_congr {keys : List String}
    (same : ∀ v, Visits mode shape expand keys members v → expand v = other v) :
    expandKeys mode shape expand keys members = expandKeys mode shape other keys members := by
  induction keys generalizing members with
  | nil => rfl
  | cons key rest ih =>
    have first := expandKey_congr fun v visit => same v (.here visit)
    have later : ∀ next, expandKeys mode shape expand [key] members = .ok next →
        expandKeys mode shape expand rest next = expandKeys mode shape other rest next :=
      fun next done => ih fun v visits => same v (.later (treated_of_key done) visits)
    calc expandKeys mode shape expand (key :: rest) members
        = (expandKeys mode shape expand [key] members >>=
            expandKeys mode shape expand rest) := expandKeys_cons key rest members
      _ = (expandKeys mode shape expand [key] members >>=
            expandKeys mode shape other rest) := bind_ok_congr later
      _ = (expandKeys mode shape other [key] members >>=
            expandKeys mode shape other rest) := by rw [first]
      _ = expandKeys mode shape other (key :: rest) members :=
          (expandKeys_cons key rest members).symm

theorem mapM_congr {items : List Value} (same : ∀ v ∈ items, expand v = other v) :
    items.mapM expand = items.mapM other := by
  induction items with
  | nil => rfl
  | cons v rest ih =>
    rw [List.forall_mem_cons] at same
    rw [List.mapM_cons, List.mapM_cons, same.1, ih same.2]

theorem expandOnce_congr {v : Value}
    (same : ∀ w, Calls mode shape expand v w → expand w = other w) :
    expandOnce mode shape expand v = expandOnce mode shape other v := by
  cases v with
  | arr items =>
    rw [expandOnce, expandOnce, mapM_congr fun w member => same w (.item member)]
  | obj members =>
    rw [expandOnce, expandOnce, expandKeys_congr fun w visits => same w (.member visits)]
  | _ => rfl

/-- An expansion is given up only where it calls itself. -/
theorem expandOnce_concluded {v : Value}
    (each : ∀ w, Calls mode shape expand v w → Concluded (expand w)) :
    Concluded (expandOnce mode shape expand v) := by
  cases v with
  | arr items => exact (Concluded.mapM fun w member => each w (.item member)).map _
  | obj members => exact (expandKeys_concluded fun w visits => each w (.member visits)).map _
  | _ => exact .ok _

end Keys

section Recursion

variable {mode : Substitution} {shape : Shape}

def attempted {α : Type} : Option (Except Error α) → Attempt α
  | some (.ok a) => .ok a
  | some (.error error) => .error (some error)
  | none => .error none

theorem attempted_ended {α : Type} (attempt : Attempt α) : attempted (ended attempt) = attempt := by
  rcases attempt with (_ | error) | a <;> rfl

theorem ended_attempted {α : Type} (outcome : Option (Except Error α)) :
    ended (attempted outcome) = outcome := by
  rcases outcome with _ | error | a <;> rfl

noncomputable def unlimited (mode : Substitution) (shape : Shape) (v : Value) : Attempt Value :=
  attempted (expandShape mode shape v).final

theorem unlimited_eq_ok {v result : Value} :
    unlimited mode shape v = .ok result ↔ Expands mode shape v result := by
  rw [← ended_eq_ok, unlimited, ended_attempted, Expands]

theorem expandWithin_succ (mode : Substitution) (shape : Shape) (levels : Nat) (v : Value) :
    expandWithin mode shape (levels + 1) v =
      expandOnce mode shape (expandWithin mode shape levels) v := by
  cases v <;> rfl

theorem expandWithin_eventually (mode : Substitution) (shape : Shape) (v : Value) :
    ∃ levels, ∀ more, levels ≤ more → expandWithin mode shape more v = unlimited mode shape v := by
  obtain ⟨levels, same⟩ := Delay.within_eventually (expandShape mode shape v)
  refine ⟨levels, fun more enough => ?_⟩
  rw [unlimited, ← same more enough]
  exact (attempted_ended _).symm

theorem expandKeys_eventually (mode : Substitution) (shape : Shape) (keys : List String)
    (members : Members) : ∃ levels, ∀ more, levels ≤ more →
      expandKeys mode shape (expandWithin mode shape more) keys members =
        expandKeys mode shape (unlimited mode shape) keys members := by
  induction keys generalizing members with
  | nil => exact ⟨0, fun _ _ => rfl⟩
  | cons key rest ih =>
    have own : ∃ levels, ∀ more, levels ≤ more →
        expandKeys mode shape (expandWithin mode shape more) [key] members =
          expandKeys mode shape (unlimited mode shape) [key] members := by
      rcases expandKey_asks mode shape key members with ⟨v, put, -, asks⟩ | ⟨outcome, -, asks⟩
      · obtain ⟨levels, same⟩ := expandWithin_eventually mode shape v
        exact ⟨levels, fun more enough => by rw [asks, asks, same more enough]⟩
      · exact ⟨0, fun more _ => by rw [asks, asks]⟩
    obtain ⟨first, own⟩ := own
    have last : expandKeys mode shape (unlimited mode shape) (key :: rest) members = _ :=
      expandKeys_cons key rest members
    -- The rest is treated only where the key could be, and then it is the same members.
    cases done : expandKeys mode shape (unlimited mode shape) [key] members with
    | error error =>
      refine ⟨first, fun more enough => ?_⟩
      rw [expandKeys_cons, last, own more enough, done]
      rfl
    | ok next =>
      obtain ⟨second, later⟩ := ih next
      refine ⟨max first second, fun more enough => ?_⟩
      have enoughFirst := (Nat.le_max_left first second).trans enough
      have enoughSecond := (Nat.le_max_right first second).trans enough
      rw [expandKeys_cons, last, own more enoughFirst, done]
      exact later more enoughSecond

theorem mapM_eventually (mode : Substitution) (shape : Shape) (items : List Value) :
    ∃ levels, ∀ more, levels ≤ more →
      items.mapM (expandWithin mode shape more) = items.mapM (unlimited mode shape) := by
  induction items with
  | nil => exact ⟨0, fun _ _ => rfl⟩
  | cons v rest ih =>
    obtain ⟨first, own⟩ := expandWithin_eventually mode shape v
    obtain ⟨second, others⟩ := ih
    refine ⟨max first second, fun more enough => ?_⟩
    rw [List.mapM_cons, List.mapM_cons, own more ((Nat.le_max_left first second).trans enough),
      others more ((Nat.le_max_right first second).trans enough)]

theorem unlimited_once (mode : Substitution) (shape : Shape) (v : Value) :
    unlimited mode shape v = expandOnce mode shape (unlimited mode shape) v := by
  have inner : ∃ levels, ∀ more, levels ≤ more →
      expandOnce mode shape (expandWithin mode shape more) v =
        expandOnce mode shape (unlimited mode shape) v := by
    cases v with
    | arr items =>
      obtain ⟨levels, same⟩ := mapM_eventually mode shape items
      exact ⟨levels, fun more enough => by rw [expandOnce, expandOnce, same more enough]⟩
    | obj members =>
      obtain ⟨levels, same⟩ := expandKeys_eventually mode shape (Table.keys members) members
      exact ⟨levels, fun more enough => by rw [expandOnce, expandOnce, same more enough]⟩
    | _ => exact ⟨0, fun _ _ => rfl⟩
  obtain ⟨first, same⟩ := inner
  obtain ⟨second, own⟩ := expandWithin_eventually mode shape v
  have enough : second ≤ max first second + 1 :=
    (Nat.le_max_right first second).trans (Nat.le_succ _)
  rw [← own _ enough, expandWithin_succ, same _ (Nat.le_max_left first second)]

end Recursion

section Descent

variable {shape : Shape} {expand : Value → Attempt Value} {bound : Nat}

theorem Visit.depth {key : String} {members : Members} {v : Value}
    (visit : Visit .tree shape key members v) (shallow : membersDepth members ≤ bound) :
    v.depth ≤ bound := by
  cases visit with
  | member plain found => exact depth_of_get? found shallow
  | group isTemplate place copied gathers =>
    exact (group_depth (Table.split?_some place ▸ shallow) copied gathers).2

theorem Visits.depth (keeps : ∀ v result, expand v = .ok result → result.depth ≤ v.depth)
    {keys : List String} {members : Members} {v : Value}
    (visits : Visits .tree shape expand keys members v) (shallow : membersDepth members ≤ bound) :
    v.depth ≤ bound := by
  induction visits with
  | here visit => exact visit.depth shallow
  | later treated visits ih => exact ih (treated.depth keeps shallow)

theorem Calls.depth (keeps : ∀ v result, expand v = .ok result → result.depth ≤ v.depth)
    {v w : Value} (calls : Calls .tree shape expand v w) : w.depth < v.depth := by
  cases calls with
  | item member => exact Nat.lt_succ_of_le (Json.itemsDepth_le.mp (Nat.le_refl _) w member)
  | member visits => exact Nat.lt_succ_of_le (visits.depth keeps (Nat.le_refl _))

theorem unlimited_depth {v result : Value} (done : unlimited .tree shape v = .ok result) :
    result.depth ≤ v.depth := by
  obtain ⟨levels, within⟩ := expands_iff.mp (unlimited_eq_ok.mp done)
  exact expandWithin_depth within

theorem calls_depth {v w : Value} (calls : Calls .tree shape (unlimited .tree shape) v w) :
    w.depth < v.depth := calls.depth fun _ _ => unlimited_depth

/-- What holds of a document if it holds of those it calls expansion for holds of all. -/
theorem calls_induction (shape : Shape) {P : Value → Prop}
    (step : ∀ v, (∀ w, Calls .tree shape (unlimited .tree shape) v w → P w) → P v) (v : Value) :
    P v := by
  induction size : v.depth using Nat.strong_induction_on generalizing v with
  | _ depth ih =>
    apply step
    intro w calls
    exact ih w.depth (size ▸ calls_depth calls) w rfl

/-- Inside strings a document needs no more levels than it has. -/
theorem expandWithin_tree {levels : Nat} {v : Value} (deep : v.depth ≤ levels) :
    expandWithin .tree shape levels v = unlimited .tree shape v := by
  induction levels generalizing v with
  | zero =>
    rw [unlimited_once]
    cases v with
    | arr items => cases deep
    | obj members => cases deep
    | _ => rfl
  | succ levels ih =>
    rw [unlimited_once, expandWithin_succ]
    refine (expandOnce_congr fun w calls => ?_).symm
    exact (ih (Nat.le_of_lt_succ (Nat.lt_of_lt_of_le (calls_depth calls) deep))).symm

theorem expandShape_tree (shape : Shape) (v : Value) :
    ∃ outcome, (expandShape .tree shape v).within v.depth = some outcome := by
  have concluded : Concluded (unlimited .tree shape v) := by
    induction v using calls_induction shape with
    | step v ih =>
      rw [unlimited_once]
      exact expandOnce_concluded ih
  rw [← expandWithin_tree (Nat.le_refl _)] at concluded
  rcases attempt : expandWithin .tree shape v.depth v with (_ | error) | result
  · exact absurd attempt concluded
  · exact ⟨.error error, congrArg ended attempt⟩
  · exact ⟨.ok result, congrArg ended attempt⟩

end Descent

/-- Expansion inside strings ends for every document, with a result or with an error and within the
levels of the document. It calls itself, and it is the only function that calls itself in this way.
The result is no deeper than the document, and expansions that are called one inside another are no
more than the levels of the document, those of the last one left. -/
theorem expandShape_ends (shape : Shape) :
    let expand := fun v => attempted (expandShape .tree shape v).final
    (∀ v, ∃ outcome, (expandShape .tree shape v).within v.depth = some outcome) ∧
      (∀ v, expand v = expandOnce .tree shape expand v) ∧
      (∀ other : Value → Attempt Value, (∀ v, other v = expandOnce .tree shape other v) →
        other = expand) ∧
      (∀ v w, (expandShape .tree shape v).final = some (.ok w) → w.depth ≤ v.depth) ∧
      ∀ count v w, Steps (Calls .tree shape expand) count v w → count + w.depth ≤ v.depth := by
  intro expand
  refine ⟨expandShape_tree shape, unlimited_once .tree shape, fun other once => ?_,
    fun v w done => ?_, ?_⟩
  · funext v
    induction v using calls_induction shape with
    | step v ih =>
      have same : expand v = expandOnce .tree shape expand v := unlimited_once .tree shape v
      rw [once, same]
      exact (expandOnce_congr fun w calls => (ih w calls).symm).symm
  · exact unlimited_depth (unlimited_eq_ok.mpr done)
  · intro count v w steps
    induction steps with
    | none v => exact Nat.le_of_eq (Nat.zero_add _)
    | more calls later ih =>
      have less := calls_depth calls
      omega

def emergingTemplate : Value :=
  .obj [("{^^g^^}", templateOf seven [("k", .str "^^h^^\x7d")]
    (.obj [("\x7b(^^k^^)", templateOf seven [] (.obj []))]))]

/-- What comes out of a template is expanded in turn, and is less deep. -/
theorem emergingTemplate_ends :
    Expands .tree .object emergingTemplate (.obj [("g", .obj [("h", .obj [])])]) ∧
      (Value.obj [("g", .obj [("h", .obj [])])]).depth ≤ emergingTemplate.depth ∧
      Steps (Calls .tree .object (unlimited .tree .object)) 1 emergingTemplate
        (.obj [("{^^h^^}", templateOf seven [] (.obj []))]) ∧
      1 + (Value.obj [("{^^h^^}", templateOf seven [] (.obj []))]).depth ≤
        emergingTemplate.depth := by
  obtain ⟨-, -, -, shallow, chains⟩ := expandShape_ends .object
  have inner : instantiate .tree "{^^h^^}" (templateOf seven [] (.obj [])) = .ok [.obj []] := by
    rw [instantiate_templateOf _ _ rangeOf_seven]
    rfl
  have outer : instantiate .tree "{^^g^^}" (templateOf seven [("k", .str "^^h^^\x7d")]
      (.obj [("\x7b(^^k^^)", templateOf seven [] (.obj []))])) =
        .ok [.obj [("{^^h^^}", templateOf seven [] (.obj []))]] := by
    rw [instantiate_templateOf _ _ rangeOf_seven]
    rfl
  have group : Shape.object.group? "{^^g^^}" = some "g" := by decide
  have innerGroup : Shape.object.group? "{^^h^^}" = some "h" := by decide
  have last : expandWithin .tree .object 3 (.obj []) = .ok (.obj []) := by rfl
  have done : Expands .tree .object emergingTemplate (.obj [("g", .obj [("h", .obj [])])]) :=
    .of_within (expandWithin_lone group outer rfl (expandWithin_lone innerGroup inner rfl last))
  have called : Steps (Calls .tree .object (unlimited .tree .object)) 1 emergingTemplate
      (.obj [("{^^h^^}", templateOf seven [] (.obj []))]) :=
    .more (.member (.here (.group group rfl outer rfl))) (.none _)
  exact ⟨done, shallow _ _ done, called, chains _ _ _ called⟩

end StructuredLog.Config
