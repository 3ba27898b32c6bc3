import Mathlib.Data.List.Forall2
import StructuredLog.Proofs.Engine.Operations
import StructuredLog.Proofs.OptionNames

/-!
Handlers that are opened one after another. A running engine takes in what is opened in its order,
up to the first handler that is at fault, for the first of four reasons; when it is given up then,
every handle that was opened is closed.
-/

namespace StructuredLog.Engine

open Config (HandlerSpec)

variable {S W : Type}

def typesOf (factories : Table (Factory S W)) : List (HandlerType S W) :=
  factories.map fun entry => ⟨entry.1, true, true, some entry.2⟩

theorem get?_typesOf (factories : Table (Factory S W)) (type : String) :
    Table.get? type ((typesOf factories).map fun t => (t.name, t)) =
      (Table.get? type factories).map fun make => ⟨type, true, true, some make⟩ := by
  induction factories with
  | nil => rfl
  | cons entry rest ih =>
    rcases entry with ⟨name, make⟩
    by_cases same : name = type
    · subst same
      simp only [typesOf, List.map_cons, Table.get?, ↓reduceIte, Option.map_some]
    · simp only [typesOf, List.map_cons, Table.get?, same, ↓reduceIte]
      exact ih

theorem has_completed (options : Options) (place : Nat) :
    (completed options).Has place ↔ options.Has place ∨
      (∃ s : Severity, s.index = place) ∧ ∀ s : Severity, ¬options.Has s.index := by
  unfold completed
  split
  · next meets =>
    obtain ⟨s, set⟩ := (Options.intersects_allSeverities options).mp meets
    exact (or_iff_left fun added => added.2 s set).symm
  · next apart =>
    have bare : ∀ s : Severity, ¬options.Has s.index := fun s set =>
      apart ((Options.intersects_allSeverities options).mpr ⟨s, set⟩)
    rw [Options.has_union, Options.has_allSeverities, and_iff_left bare]

section Openings

variable (factories : Table (Factory S W))

/-- The factories open handles one after another, each in the surroundings that the one before
left. -/
inductive Opens : W → List (HandlerSpec × Handle S) → W → Prop where
  | none (w : W) : Opens w [] w
  | more {w next last : W} {spec : HandlerSpec} {handle : Handle S} {make : Factory S W}
      {later : List (HandlerSpec × Handle S)} (found : Table.get? spec.type factories = some make)
      (made : make spec.params w = (.ok handle, next)) (rest : Opens next later last) :
      Opens w ((spec, handle) :: later) last

/-- Handlers that can be opened one after another, under names of their own. -/
structure Openable (w : W) (opened : List (HandlerSpec × Handle S)) (last : W) : Prop where
  options : ∀ pair ∈ opened, ∀ name ∈ pair.1.options, Options.Known name
  names : (opened.map fun pair => pair.1.name).Nodup
  opens : Opens factories w opened last

/-- Why a handler cannot be opened beside others with the names `taken`, and the handle that was
opened nevertheless. Options are looked at before the type, the type before the factory is called,
and the name last. -/
inductive Faulty (taken : List String) (w : W) (spec : HandlerSpec) :
    Error → Option (Handle S) → Prop where
  | options {name : String} (first : Options.FirstUnknown spec.options name) :
      Faulty taken w spec (.unknownOption (foldName name)) none
  | type (known : ∀ name ∈ spec.options, Options.Known name)
      (unknown : spec.type ∉ Table.keys factories) :
      Faulty taken w spec (.unknownType spec.type) none
  | factory {make : Factory S W} {error : Error} (known : ∀ name ∈ spec.options, Options.Known name)
      (found : Table.get? spec.type factories = some make)
      (failed : (make spec.params w).1 = .error error) : Faulty taken w spec error none
  | name {make : Factory S W} {handle : Handle S}
      (known : ∀ name ∈ spec.options, Options.Known name)
      (found : Table.get? spec.type factories = some make)
      (made : (make spec.params w).1 = .ok handle) (present : spec.name ∈ taken) :
      Faulty taken w spec (.instanceExists spec.name) (some handle)

def FirstFault (w : W) (specs : List HandlerSpec) (error : Error)
    (opened : List (HandlerSpec × Handle S)) (refused : Option (Handle S)) : Prop :=
  ∃ next spec after, specs = opened.map Prod.fst ++ spec :: after ∧
    Openable factories w opened next ∧
    Faulty factories (opened.map fun pair => pair.1.name) next spec error refused

variable {factories} {w last : W} {opened : List (HandlerSpec × Handle S)}

theorem Opens.snoc (opens : Opens factories w opened last) {next : W} {spec : HandlerSpec}
    {handle : Handle S} {make : Factory S W} (found : Table.get? spec.type factories = some make)
    (made : make spec.params last = (.ok handle, next)) :
    Opens factories w (opened ++ [(spec, handle)]) next := by
  induction opens with
  | none w => exact .more found made (.none next)
  | more own ownMade _ ih => exact .more own ownMade (ih made)

theorem Openable.snoc (openable : Openable factories w opened last) {next : W}
    {spec : HandlerSpec} {handle : Handle S} {make : Factory S W}
    (known : ∀ name ∈ spec.options, Options.Known name)
    (found : Table.get? spec.type factories = some make)
    (made : make spec.params last = (.ok handle, next))
    (new : spec.name ∉ opened.map fun pair => pair.1.name) :
    Openable factories w (opened ++ [(spec, handle)]) next where
  options := List.forall_mem_append.mpr ⟨openable.options, List.forall_mem_singleton.mpr known⟩
  names := by
    rw [List.map_append, List.nodup_append]
    refine ⟨openable.names, List.pairwise_singleton _ _, ?_⟩
    rintro old member name single rfl
    rw [List.mem_singleton.mp single] at member
    exact new member
  opens := openable.opens.snoc found made

theorem Opens.at {all : List (HandlerSpec × Handle S)} {final : W} {spec : HandlerSpec}
    {after : List HandlerSpec} (opens : Opens factories w opened last)
    (whole : Opens factories w all final)
    (split : all.map Prod.fst = opened.map Prod.fst ++ spec :: after) :
    ∃ make handle, Table.get? spec.type factories = some make ∧
      (make spec.params last).1 = .ok handle := by
  induction opens generalizing all with
  | none w =>
    cases whole with
    | none => cases split
    | more found made rest =>
      obtain ⟨rfl, -⟩ := List.cons.inj split
      exact ⟨_, _, found, by rw [made]⟩
  | more found made _ ih =>
    cases whole with
    | none => cases split
    | more found' made' rest =>
      obtain ⟨rfl, others⟩ := List.cons.inj split
      cases found.symm.trans found'
      cases made.symm.trans made'
      exact ih rest others

theorem Opens.types {all : List (HandlerSpec × Handle S)} (opens : Opens factories w all last) :
    ∀ spec ∈ all.map Prod.fst, spec.type ∈ Table.keys factories := by
  induction opens with
  | none w => exact List.forall_mem_nil _
  | more found _ _ ih =>
    exact List.forall_mem_cons.mpr ⟨Table.mem_keys_iff.mpr ⟨_, found⟩, ih⟩

theorem FirstFault.not_openable {specs : List HandlerSpec} {error : Error}
    {refused : Option (Handle S)} (fault : FirstFault factories w specs error opened refused)
    {all : List (HandlerSpec × Handle S)} {final : W} (whole : all.map Prod.fst = specs) :
    ¬Openable factories w all final := by
  rintro ⟨options, names, opens⟩
  obtain ⟨next, spec, after, rfl, earlier, fault⟩ := fault
  obtain ⟨make, handle, found, made⟩ := earlier.opens.at opens whole
  obtain ⟨pair, member, own⟩ : ∃ pair ∈ all, pair.1 = spec :=
    List.mem_map.mp (whole ▸ List.mem_append_cons_self)
  have known := options pair member
  rw [own] at known
  cases fault with
  | options first => exact first.not_known known
  | type known unknown => exact unknown (Table.mem_keys_iff.mpr ⟨make, found⟩)
  | factory known found' failed =>
    cases found.symm.trans found'
    cases made.symm.trans failed
  | name known found' made' present =>
    have order : (all.map fun pair => pair.1.name) =
        (opened.map fun pair => pair.1.name) ++ spec.name :: after.map HandlerSpec.name := by
      have spelled := congrArg (List.map HandlerSpec.name) whole
      rwa [List.map_map, List.map_append, List.map_map] at spelled
    rw [order, List.nodup_append] at names
    exact names.2.2 _ present _ List.mem_cons_self rfl

end Openings

/-- An instance stands for the specification and the handle that it was made of: its options are
those named, and all severities where none was named. -/
structure Carries (pair : HandlerSpec × Handle S) (entry : String × Instance S W) : Prop where
  name : entry.1 = pair.1.name
  type : entry.2.type.name = pair.1.type
  handle : entry.2.handle = pair.2
  options : ∀ place, entry.2.options.Has place ↔ Options.Named pair.1.options place ∨
    (∃ s : Severity, s.index = place) ∧ ∀ s : Severity, ¬Options.Named pair.1.options s.index

theorem carries_keys {opened : List (HandlerSpec × Handle S)} {instances : Table (Instance S W)}
    (carry : List.Forall₂ Carries opened instances) :
    Table.keys instances = opened.map fun pair => pair.1.name := by
  induction carry with
  | nil => rfl
  | cons carries _ ih =>
    rw [Table.keys, List.map_cons, List.map_cons, carries.name, ← ih]
    rfl

theorem carries_ids {opened : List (HandlerSpec × Handle S)} {instances : Table (Instance S W)}
    (carry : List.Forall₂ Carries opened instances) :
    (instances.map fun entry => entry.2.handle.id) = opened.map fun pair => pair.2.id := by
  induction carry with
  | nil => rfl
  | cons carries _ ih => rw [List.map_cons, List.map_cons, carries.handle, ih]

/-- A running engine that holds what was opened, and nothing else. -/
structure Holding (factories : Table (Factory S W)) (app : AppInfo)
    (opened : List (HandlerSpec × Handle S)) (e : Engine S W) : Prop where
  app : e.app = some app
  types : e.types = (typesOf factories).map fun t => (t.name, t)
  instances : List.Forall₂ Carries opened e.instances

section Holding

variable {factories : Table (Factory S W)} {app : AppInfo}
  {opened : List (HandlerSpec × Handle S)} {e : Engine S W}

theorem Holding.keys (holding : Holding factories app opened e) :
    Table.keys e.instances = opened.map fun pair => pair.1.name :=
  carries_keys holding.instances

theorem Holding.ids (holding : Holding factories app opened e) :
    e.ids = opened.map fun pair => pair.2.id :=
  carries_ids holding.instances

theorem Holding.found (holding : Holding factories app opened e) (type : String) :
    Table.get? type e.types =
      (Table.get? type factories).map fun make => ⟨type, true, true, some make⟩ := by
  rw [holding.types, get?_typesOf]

theorem Holding.typeFor (holding : Holding factories app opened e) {name type : String}
    {make : Factory S W} (found : Table.get? type factories = some make) :
    e.typeFor name type = if name ∈ opened.map fun pair => pair.1.name
      then .error (.instanceExists name) else .ok ⟨type, true, true, some make⟩ := by
  have started : e.isStarted = true := by
    rw [isStarted, holding.app]
    rfl
  have known := holding.found type
  rw [found] at known
  unfold Engine.typeFor
  simp only [started, Table.has_eq_true, holding.keys, known, Option.map_some, Bool.not_true,
    Bool.false_eq_true, ↓reduceIte]

end Holding

def closedIds (events : List (Event S)) : List Nat := events.filterMap Event.closes?

theorem closedIds_quiet {e next : Engine S W} {events : List (Event S)}
    (quiet : Quiet e next events) : closedIds (events ++ next.dropped) = e.ids := by
  have silent : closedIds events = [] := 
    List.filterMap_eq_nil_iff.mpr fun event member => (quiet.keeps event member).closesNone
  have closes : closedIds next.dropped = next.ids := removals_close next.instances
  rw [closedIds, List.filterMap_append, ← closedIds, silent, ← closedIds, closes, quiet.ids,
    List.nil_append]

variable [Handler S] {factories : Table (Factory S W)} {app : AppInfo}
  {opened : List (HandlerSpec × Handle S)} {e : Engine S W}

/-- A refusal closes the handle that is refused, and giving the engine up all that it holds. -/
theorem refuse_closes (host : Host) (holding : Holding factories app opened e) (error : Error)
    (refused : Option (Handle S)) :
    let o := e.refuse host error (refused.map Event.closed).toList
    closedIds (o.events ++ o.engine.dropped) =
      refused.toList.map Handle.id ++ opened.map fun pair => pair.2.id := by
  intro o
  have quiet := log_quiet host e .error .none (refusalFields error)
  have own : closedIds (refused.map (Event.closed (S := S))).toList =
      refused.toList.map Handle.id := by cases refused <;> rfl
  have events : o.events ++ o.engine.dropped = (refused.map Event.closed).toList ++
      ((e.log host .error .none (refusalFields error)).2 ++
        (e.log host .error .none (refusalFields error)).1.dropped) := List.append_assoc _ _ _
  rw [events, closedIds, List.filterMap_append, ← closedIds, own, ← closedIds,
    closedIds_quiet quiet, holding.ids]

inductive SpecOpened (factories : Table (Factory S W)) (app : AppInfo)
    (opened : List (HandlerSpec × Handle S)) (w : W) (spec : HandlerSpec) :
    Outcome S W (Except Error Unit) × W → Prop where
  | held {make : Factory S W} {handle : Handle S} {next : W} {e : Engine S W}
      (known : ∀ name ∈ spec.options, Options.Known name)
      (found : Table.get? spec.type factories = some make)
      (made : make spec.params w = (.ok handle, next))
      (new : spec.name ∉ opened.map fun pair => pair.1.name)
      (holding : Holding factories app (opened ++ [(spec, handle)]) e) :
      SpecOpened factories app opened w spec (⟨.ok (), e, []⟩, next)
  | failed {error : Error} {refused : Option (Handle S)} {e : Engine S W}
      {events : List (Event S)} {next : W}
      (fault : Faulty factories (opened.map fun pair => pair.1.name) w spec error refused)
      (closes : closedIds (events ++ e.dropped) =
        refused.toList.map Handle.id ++ opened.map fun pair => pair.2.id) :
      SpecOpened factories app opened w spec (⟨.error error, e, events⟩, next)

theorem add_opened (host : Host) (holding : Holding factories app opened e) {w next : W}
    {spec : HandlerSpec} {options : Options} {make : Factory S W} {handle : Handle S}
    (known : ∀ name ∈ spec.options, Options.Known name)
    (bits : ∀ place, options.Has place ↔ Options.Named spec.options place)
    (found : Table.get? spec.type factories = some make)
    (made : make spec.params w = (.ok handle, next)) :
    SpecOpened factories app opened w spec
      (e.add host spec.name spec.type options handle, next) := by
  unfold add
  rw [holding.typeFor found]
  by_cases present : spec.name ∈ opened.map fun pair => pair.1.name
  · rw [if_pos present]
    exact .failed (.name known found (congrArg Prod.fst made) present)
      (refuse_closes host holding _ (some handle))
  · rw [if_neg present]
    have absent : spec.name ∉ Table.keys e.instances := holding.keys ▸ present
    have carries : Carries (spec, handle)
        (spec.name, ⟨spec.name, completed options, ⟨spec.type, true, true, some make⟩, handle⟩) :=
      ⟨rfl, rfl, rfl, fun place => by simp only [has_completed, bits]⟩
    refine .held known found made present ⟨holding.app, holding.types, ?_⟩
    simp only [Table.put_absent _ _ _ absent]
    exact List.rel_append holding.instances (.cons carries .nil)

theorem openSpec_opened (host : Host) (holding : Holding factories app opened e) (w : W)
    (spec : HandlerSpec) :
    SpecOpened factories app opened w spec (e.openSpec host w spec) := by
  have still : closedIds ([] ++ e.dropped) = opened.map fun pair => pair.2.id := by
    rw [closedIds_quiet (Quiet.still rfl), holding.ids]
  unfold openSpec
  rcases Options.known_or_first spec.options with known | ⟨name, first⟩
  · obtain ⟨options, named, bits⟩ := Options.ofNames_known known
    rw [named]
    have types := holding.found spec.type
    unfold openHandler
    cases found : Table.get? spec.type factories with
    | none =>
      rw [found, Option.map_none] at types
      simp only [types]
      have unknown : spec.type ∉ Table.keys factories := by
        rw [Table.mem_keys_iff, found]
        rintro ⟨make, ⟨⟩⟩
      exact .failed (.type known unknown) (refuse_closes host holding _ none)
    | some make =>
      rw [found, Option.map_some] at types
      rcases made : make spec.params w with ⟨answer, next⟩
      simp only [types, made]
      cases answer with
      | error error => exact .failed (.factory known found (congrArg Prod.fst made)) still
      | ok handle => exact add_opened host holding known bits found made
  · rw [Options.ofNames_unknown first]
    exact .failed (.options first) still

inductive SpecsOpened (factories : Table (Factory S W)) (app : AppInfo) (w : W)
    (specs : List HandlerSpec) : Outcome S W (Except Error Unit) × W → Prop where
  | held {opened : List (HandlerSpec × Handle S)} {last : W} {e : Engine S W}
      (all : opened.map Prod.fst = specs) (openable : Openable factories w opened last)
      (holding : Holding factories app opened e) :
      SpecsOpened factories app w specs (⟨.ok (), e, []⟩, last)
  | failed {opened : List (HandlerSpec × Handle S)} {error : Error}
      {refused : Option (Handle S)} {e : Engine S W} {events : List (Event S)} {next : W}
      (fault : FirstFault factories w specs error opened refused)
      (closes : closedIds (events ++ e.dropped) =
        refused.toList.map Handle.id ++ opened.map fun pair => pair.2.id) :
      SpecsOpened factories app w specs (⟨.error error, e, events⟩, next)

/-- The run over all specifications, from one that was opened up to some of them. -/
theorem openSpecs_opened (host : Host) {w next : W} (openable : Openable factories w opened next)
    (holding : Holding factories app opened e) (specs : List HandlerSpec) :
    SpecsOpened factories app w (opened.map Prod.fst ++ specs) (e.openSpecs host next specs) := by
  induction specs generalizing opened next e with
  | nil => exact .held (List.append_nil _).symm openable holding
  | cons spec rest ih =>
    have one := openSpec_opened host holding next spec
    unfold openSpecs
    generalize e.openSpec host next spec = outcome at one ⊢
    cases one with
    | @held make handle after e known found made new holding =>
      have longer := openable.snoc known found made new
      have later := ih longer holding
      rw [List.map_append, List.append_assoc] at later
      exact later
    | failed fault closes => exact .failed ⟨next, spec, rest, rfl, openable, fault⟩ closes

end StructuredLog.Engine
