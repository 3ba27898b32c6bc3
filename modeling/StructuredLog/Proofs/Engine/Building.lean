import StructuredLog.Proofs.Engine.Openings
import StructuredLog.Proofs.Engine.Starting

/-!
Engines built from settings. There is one exactly when its types fit in and all of its handlers can
be opened one after another; then it holds them in their order. Otherwise the types that do not fit
in or the first handler at fault say why there is none, and every handle that was opened is closed.
-/

namespace StructuredLog.Engine

open Config (HandlerSpec LogSettings)

variable {S W : Type}

def usualFactories (console file datagrams : Factory S W) : Table (Factory S W) :=
  [("stdout", console), ("file", file), ("udp", datagrams)]

theorem builtinTypes_eq : Sink.builtinTypes = typesOf
    (usualFactories Sink.consoleFactory Sink.fileFactory Sink.datagramFactory) := rfl

theorem namesOf_typesOf (factories : Table (Factory S W)) :
    namesOf (typesOf factories) = Table.keys factories := by
  rw [namesOf, typesOf, List.map_map]
  rfl

/-- Types hinder an engine without others only by their number. -/
theorem full_of_hinders {maxTypes : Nat} {names : List String} {error : Error}
    (hinders : Hinders maxTypes [] names error) :
    maxTypes < names.length ∧
      ∃ name, names[maxTypes]? = some name ∧ error = .typeTableFull maxTypes name := by
  cases hinders with
  | there _ _ present => cases present
  | @full before after name split earlier _ full =>
    have room : 0 + before.length ≤ maxTypes := earlier.room
    have many : maxTypes ≤ 0 + before.length := full
    have place : maxTypes = before.length := by omega
    subst place
    refine ⟨?_, name, ?_, rfl⟩
    · rw [split, List.length_append, List.length_cons]
      omega
    · rw [split, List.getElem?_append_right (Nat.le_refl _), Nat.sub_self]
      rfl

variable [Handler S] {factories : Table (Factory S W)}

theorem startup_holding (d : Design S W) (host : Host) (app : AppInfo)
    (distinct : (Table.keys factories).Nodup) (own : d.builtins = typesOf factories) :
    (factories.length ≤ d.maxTypes ∧
      ∃ e, d.engine.startup host app = ⟨.ok (), e, []⟩ ∧ Holding factories app [] e) ∨
    (d.maxTypes < factories.length ∧ ∃ name e events,
      (Table.keys factories)[d.maxTypes]? = some name ∧
        d.engine.startup host app = ⟨.error (.typeTableFull d.maxTypes name), e, events⟩ ∧
        closedIds (events ++ e.dropped) = []) := by
  have sound := new_sound d
  have names : namesOf d.engine.builtins = Table.keys factories :=
    (congrArg namesOf own).trans (namesOf_typesOf factories)
  have number : (Table.keys factories).length = factories.length := List.length_map _
  rcases startup_cases host d.engine app with
    ⟨error, -, same⟩ | ⟨error, _, failed, -⟩ | ⟨h, pool, granted, -, same⟩
  · right
    have fails : (d.engine.startup host app).answer = .error error :=
      congrArg Outcome.answer same
    have decided := startup_hindered sound (new_registered d) fails rfl
    rw [names] at decided
    obtain ⟨full, name, place, rfl⟩ := full_of_hinders decided
    exact ⟨number ▸ full, name, _, _, place, same,
      closedIds_quiet (log_quiet host d.engine .error .none _)⟩
  · obtain ⟨pool, b, given, -⟩ := withSlot_ok sound
    cases failed.symm.trans given
  · left
    have fits := refusal?_none (new_registered d) granted
    have room : 0 + (namesOf d.engine.builtins).length ≤ d.maxTypes := fits.room
    rw [names, number, Nat.zero_add] at room
    refine ⟨room, _, same, rfl, ?_, .nil⟩
    exact (enroll_new fits.new (names ▸ distinct)).trans (by rw [← own]; rfl)

inductive SettingsBuilt (factories : Table (Factory S W)) (w : W) (settings : LogSettings)
    (executable : String) : Built S W → Prop where
  | held {opened : List (HandlerSpec × Handle S)} {last : W} {e : Engine S W}
      (room : factories.length ≤ settings.maxTypes.toNat)
      (all : opened.map Prod.fst = settings.handlers)
      (openable : Openable factories w opened last)
      (holding :
        Holding factories ⟨settings.appName, settings.appVersion, executable⟩ opened e) :
      SettingsBuilt factories w settings executable ⟨.ok e, last, []⟩
  | full {name : String} {events : List (Event S)}
      (full : settings.maxTypes.toNat < factories.length)
      (place : (Table.keys factories)[settings.maxTypes.toNat]? = some name)
      (closes : closedIds events = []) :
      SettingsBuilt factories w settings executable
        ⟨.error (.typeTableFull settings.maxTypes.toNat name), w, events⟩
  | failed {opened : List (HandlerSpec × Handle S)} {error : Error}
      {refused : Option (Handle S)} {events : List (Event S)} {next : W}
      (room : factories.length ≤ settings.maxTypes.toNat)
      (fault : FirstFault factories w settings.handlers error opened refused)
      (closes : closedIds events =
        refused.toList.map Handle.id ++ opened.map fun pair => pair.2.id) :
      SettingsBuilt factories w settings executable ⟨.error error, next, events⟩

theorem ofSettings_built (host : Host) (distinct : (Table.keys factories).Nodup) (w : W)
    (settings : LogSettings) (executable : String) :
    SettingsBuilt factories w settings executable
      (ofSettings host (typesOf factories) w settings executable) := by
  let d := Design.ofSettings host (typesOf factories) settings
  let app : AppInfo := ⟨settings.appName, settings.appVersion, executable⟩
  have outcome := startup_holding d host app distinct rfl
  simp only [d, app, Design.engine, Design.ofSettings] at outcome
  unfold ofSettings
  rcases outcome with ⟨room, e, same, holding⟩ | ⟨full, name, e, events, place, same, closes⟩
  · simp only [same]
    have opened := openSpecs_opened host ⟨List.forall_mem_nil _, List.nodup_nil, .none w⟩ holding
      settings.handlers
    rw [List.map_nil, List.nil_append] at opened
    generalize e.openSpecs host w settings.handlers = run at opened ⊢
    cases opened with
    | held all openable holding => exact .held room all openable holding
    | failed fault closes => exact .failed room fault closes
  · simp only [same]
    exact .full full place closes

/-- What is built from settings when the usual types are opened by certain factories: an engine that
holds all handlers, or none, and then all that was opened is closed. -/
structure Builds (factories : Table (Factory S W)) (w : W) (settings : LogSettings)
    (executable : String) (built : Built S W) : Prop where
  /-- What there has to be for an engine. -/
  whole : (∃ e, built.engine = .ok e) ↔
    3 ≤ settings.maxTypes.toNat ∧
      (∀ spec ∈ settings.handlers, ∀ name ∈ spec.options, Options.Known name) ∧
      (∀ spec ∈ settings.handlers, spec.type ∈ ["stdout", "file", "udp"]) ∧
      (settings.handlers.map HandlerSpec.name).Nodup ∧
      ∃ opened last, opened.map Prod.fst = settings.handlers ∧ Opens factories w opened last
  /-- The engine runs and holds the handlers in their order. -/
  engine : ∀ e, built.engine = .ok e →
    e.app = some ⟨settings.appName, settings.appVersion, executable⟩ ∧
      Table.keys e.instances = settings.handlers.map HandlerSpec.name ∧ built.events = [] ∧
      ∃ opened, opened.map Prod.fst = settings.handlers ∧
        Opens factories w opened built.surroundings ∧ List.Forall₂ Carries opened e.instances
  /-- Without room for its types an engine opens nothing. -/
  full : settings.maxTypes.toNat < 3 →
    ∃ name, ["stdout", "file", "udp"][settings.maxTypes.toNat]? = some name ∧
      built.engine = .error (.typeTableFull settings.maxTypes.toNat name) ∧
      built.surroundings = w ∧ closedIds built.events = []
  /-- Otherwise the first fault is the error, and what was opened is closed, each handle once. -/
  fault : ∀ error, built.engine = .error error → 3 ≤ settings.maxTypes.toNat →
    ∃ opened refused, FirstFault factories w settings.handlers error opened refused ∧
      closedIds built.events = refused.toList.map Handle.id ++ opened.map fun pair => pair.2.id

/-- Engines are built from settings as a whole or not at all. -/
theorem ofSettings_builds (host : Host) (console file datagrams : Factory S W) (w : W)
    (settings : LogSettings) (executable : String) :
    let factories := usualFactories console file datagrams
    Builds factories w settings executable
      (ofSettings host (typesOf factories) w settings executable) := by
  intro factories
  have names : Table.keys factories = ["stdout", "file", "udp"] := rfl
  have three : factories.length = 3 := rfl
  have distinct : (Table.keys factories).Nodup := by
    rw [names]
    decide
  have built := ofSettings_built host distinct w settings executable
  generalize ofSettings host (typesOf factories) w settings executable = result at built
  cases built with
  | @held opened last e room all openable holding =>
    have order : (opened.map fun pair => pair.1.name) = settings.handlers.map HandlerSpec.name := by
      rw [← all, List.map_map]
      rfl
    refine ⟨⟨fun _ => ⟨room, ?_, ?_, ?_, opened, last, all, openable.opens⟩,
      fun _ => ⟨e, rfl⟩⟩, ?_, ?_, ?_⟩
    · rw [← all, List.forall_mem_map]
      exact openable.options
    · rw [← names, ← all]
      exact openable.opens.types
    · rw [← order]
      exact openable.names
    · rintro _ ⟨⟩
      exact ⟨holding.app, holding.keys.trans order, rfl, opened, all, openable.opens,
        holding.instances⟩
    · intro full
      omega
    · rintro error ⟨⟩
  | @full name events full place closes =>
    refine ⟨⟨?_, ?_⟩, ?_, ?_, ?_⟩
    · rintro ⟨e, ⟨⟩⟩
    · rintro ⟨room, -⟩
      omega
    · rintro e ⟨⟩
    · exact fun _ => ⟨name, place, rfl, rfl, closes⟩
    · intro error _ room
      omega
  | @failed opened error refused events next room fault closes =>
    refine ⟨⟨?_, ?_⟩, ?_, ?_, ?_⟩
    · rintro ⟨e, ⟨⟩⟩
    · rintro ⟨-, options, -, distinct, all, last, whole, opens⟩
      refine absurd ⟨?_, ?_, opens⟩ (fault.not_openable whole)
      · exact List.forall_mem_map.mp (whole ▸ options)
      · have spelled := congrArg (List.map HandlerSpec.name) whole
        rw [List.map_map] at spelled
        exact spelled ▸ distinct
    · rintro e ⟨⟩
    · intro full
      omega
    · rintro _ ⟨⟩ _
      exact ⟨opened, refused, fault, closes⟩

/-- Two consoles of one name: the second is closed when it is refused, the first with the engine. -/
example :
    let spec : HandlerSpec := ⟨"out", "stdout", [], .obj []⟩
    let w : Surroundings := ⟨FileTree.empty [], [], [], true, "", 0, false⟩
    closedIds (ofSettings bareHost Sink.builtinTypes w ⟨"app", "1", [spec, spec], 10, false⟩
      "program").events = [1, 0] := by rfl

end StructuredLog.Engine
