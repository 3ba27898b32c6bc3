import StructuredLog.Engine.Setup
import StructuredLog.Sink.Basic

/-!
Runs of an engine: operations one after another, each on the machine as it is at that time. An
engine that was made from settings is the end of such a run, and so is one that was given up because
a handler could not be opened.
-/

namespace StructuredLog.Engine

open Config (HandlerSpec LogSettings)
open Record (Fields)
open Text (Bytes)

variable {S W : Type}

inductive Operation (S W : Type) where
  | startup (app : AppInfo)
  | register (type : HandlerType S W)
  | add (name type : String) (options : Options) (handle : Handle S)
  | openHandler (surroundings : W) (name type : String) (options : Options) (params : Json.Value)
  | remove (name : String)
  | shutdown
  | log (severity : Severity) (options : Options) (fields : Fields)
  | logRaw (severity : Severity) (options : Options) (data : Bytes)
  | say (severity : Severity) (text : String)
  | displayBytes (data : Bytes) (label : String)
  | displayDocument (document : Json.Value) (label : String)
  | displayHex (data : Bytes) (label : String)
  | resetCounters
  | setInforms (informs : Bool)

inductive Answer where
  | done
  | result (result : Except Error Unit)
  | count (removed : Nat)

def answering {α : Type} (answer : α → Answer) (o : Outcome S W α) : Outcome S W Answer :=
  ⟨answer o.answer, o.engine, o.events⟩

def answered (after : Engine S W × List (Event S)) : Outcome S W Answer :=
  ⟨.done, after.1, after.2⟩

variable [Handler S]

def perform (host : Host) (e : Engine S W) : Operation S W → Outcome S W Answer
  | .startup app => answering .result (e.startup host app)
  | .register type => answering .result (e.register host type)
  | .add name type options handle => answering .result (e.add host name type options handle)
  | .openHandler surroundings name type options params =>
      answering .result (e.openHandler host surroundings name type options params).1
  | .remove name => answering .count (e.remove name)
  | .shutdown => answering .count e.shutdown
  | .log severity options fields => answered (e.log host severity options fields)
  | .logRaw severity options data => answered (e.logRaw severity options data)
  | .say severity text => answered (e.say host severity text)
  | .displayBytes data label => answered (e.displayBytes host data label)
  | .displayDocument document label => answered (e.displayDocument host document label)
  | .displayHex data label => answered (e.displayHex host data label)
  | .resetCounters => answered (e.resetCounters, [])
  | .setInforms informs => answered (e.setInforms informs, [])

structure Call (S W : Type) where
  host : Host
  operation : Operation S W

def Call.outcome (c : Call S W) (e : Engine S W) : Outcome S W Answer :=
  perform c.host e c.operation

def after (e : Engine S W) : List (Call S W) → Engine S W
  | [] => e
  | c :: rest => after (c.outcome e).engine rest

def eventsOf (e : Engine S W) : List (Call S W) → List (Event S)
  | [] => []
  | c :: rest => (c.outcome e).events ++ eventsOf (c.outcome e).engine rest

theorem after_invariant {P : Engine S W → Prop}
    (kept : ∀ (e : Engine S W) (c : Call S W), P e → P (c.outcome e).engine)
    (e : Engine S W) (calls : List (Call S W)) (initial : P e) : P (e.after calls) := by
  induction calls generalizing e with
  | nil => exact initial
  | cons c rest ih => exact ih _ (kept e c initial)

theorem after_append (e : Engine S W) (first second : List (Call S W)) :
    e.after (first ++ second) = (e.after first).after second := by
  induction first generalizing e with
  | nil => rfl
  | cons c rest ih => exact ih (c.outcome e).engine

/-- How an engine is made: with so many types at most, with or without indented records, and with
the types that it is started with. -/
structure Design (S W : Type) where
  host : Host
  maxTypes : Nat
  indented : Bool
  builtins : List (HandlerType S W)

def Design.engine (d : Design S W) : Engine S W := .new d.host d.maxTypes d.indented d.builtins

def Design.run (d : Design S W) (calls : List (Call S W)) : Engine S W := d.engine.after calls

def bareHost : Host := ⟨"host", "", "", 1, "program", "2024-01-01", fun _ => "2024-01-01", []⟩

def memoryDesign : Design Sink Unit := ⟨bareHost, 1, false, [.new "memory"]⟩

/-- The calls that open the handlers of specifications, up to the first whose options are unknown or
that cannot be opened. -/
def openings (host : Host) (e : Engine S W) (surroundings : W) : List HandlerSpec → List (Call S W)
  | [] => []
  | spec :: rest => match Options.ofNames spec.options with
    | .error _ => []
    | .ok options =>
        let c : Call S W :=
          ⟨host, .openHandler surroundings spec.name spec.type options spec.params⟩
        match e.openHandler host surroundings spec.name spec.type options spec.params with
        | (⟨.error _, _, _⟩, _) => [c]
        | (⟨.ok (), e, _⟩, surroundings) => c :: openings host e surroundings rest

theorem openSpecs_run (host : Host) (e : Engine S W) (surroundings : W)
    (specs : List HandlerSpec) :
    (e.openSpecs host surroundings specs).1.engine = e.after (openings host e surroundings specs) ∧
      (e.openSpecs host surroundings specs).1.events =
        e.eventsOf (openings host e surroundings specs) := by
  induction specs generalizing e surroundings with
  | nil => exact ⟨rfl, rfl⟩
  | cons spec rest ih =>
    unfold openSpecs openSpec openings
    cases known : Options.ofNames spec.options with
    | error error => exact ⟨rfl, rfl⟩
    | ok options =>
      rcases opened : e.openHandler host surroundings spec.name spec.type options spec.params with
        ⟨⟨answer, next, events⟩, surroundings'⟩
      cases answer with
      | error error =>
        simp [opened, after, eventsOf, Call.outcome, perform, answering]
      | ok _ =>
        obtain ⟨engines, rests⟩ := ih next surroundings'
        simp [opened, after, eventsOf, Call.outcome, perform, answering, engines, rests]

def Design.ofSettings (host : Host) (builtins : List (HandlerType S W)) (settings : LogSettings) :
    Design S W :=
  ⟨host, settings.maxTypes.toNat, settings.indented, builtins⟩

def callsOf (host : Host) (builtins : List (HandlerType S W)) (surroundings : W)
    (settings : LogSettings) (executable : String) : List (Call S W) :=
  let app : AppInfo := ⟨settings.appName, settings.appVersion, executable⟩
  let started := (Design.ofSettings host builtins settings).engine.startup host app
  ⟨host, .startup app⟩ :: match started.answer with
    | .error _ => []
    | .ok () => openings host started.engine surroundings settings.handlers

/-- An engine made from settings is what a run leaves, and so are the events; when it is given up
the events end with those of giving it up. -/
theorem ofSettings_run (host : Host) (builtins : List (HandlerType S W)) (surroundings : W)
    (settings : LogSettings) (executable : String) :
    let d := Design.ofSettings host builtins settings
    let calls := callsOf host builtins surroundings settings executable
    let built := ofSettings host builtins surroundings settings executable
    match built.engine with
    | .ok e => e = d.run calls ∧ built.events = d.engine.eventsOf calls
    | .error _ => built.events = d.engine.eventsOf calls ++ (d.run calls).dropped := by
  intro d calls built
  let app : AppInfo := ⟨settings.appName, settings.appVersion, executable⟩
  rcases started : d.engine.startup host app with ⟨answer, e, events⟩
  cases answer with
  | error error =>
    have madeCalls : calls = [⟨host, .startup app⟩] := by
      simp only [calls, callsOf, app, d] at started ⊢
      rw [started]
    have madeBuilt : built = ⟨.error error, surroundings, events ++ e.dropped⟩ := by
      simp only [built, ofSettings, Design.engine, Design.ofSettings, app, d] at started ⊢
      rw [started]
      rfl
    rw [madeBuilt, madeCalls]
    simp [Design.run, after, eventsOf, Call.outcome, perform, answering, started]
  | ok _ =>
    have madeCalls : calls =
        ⟨host, .startup app⟩ :: openings host e surroundings settings.handlers := by
      simp only [calls, callsOf, app, d] at started ⊢
      rw [started]
    obtain ⟨engines, openEvents⟩ := openSpecs_run host e surroundings settings.handlers
    rcases opened : e.openSpecs host surroundings settings.handlers with
      ⟨⟨answer, last, more⟩, surroundings'⟩
    rw [opened] at engines openEvents
    simp only at engines openEvents
    have madeBuilt : built = .ofOutcome surroundings' ⟨answer, last, events ++ more⟩ := by
      simp only [built, ofSettings, Design.engine, Design.ofSettings, app, d] at started ⊢
      rw [started]
      simp only [opened]
    have runs : d.run calls = last := by
      rw [madeCalls, engines]
      simp [Design.run, after, Call.outcome, perform, answering, started]
    have happened : d.engine.eventsOf calls = events ++ more := by
      rw [madeCalls, openEvents]
      simp [eventsOf, Call.outcome, perform, answering, started]
    rw [madeBuilt, runs, happened]
    cases answer with
    | error error => rfl
    | ok _ => exact ⟨rfl, rfl⟩

end StructuredLog.Engine
