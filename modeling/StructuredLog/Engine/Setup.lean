import StructuredLog.Config.Settings
import StructuredLog.Engine.Handlers

/-!
Engines by settings: an engine is started and the handlers of the settings are opened in their
order. When that fails the engine is given up, so that every handle opened on the way is closed.
-/

namespace StructuredLog.Engine

open Config (HandlerSpec LogSettings)

variable {S W : Type}

/-- Opens the handler of a specification; unknown option names are found before anything else. -/
def openSpec [Handler S] (host : Host) (e : Engine S W) (surroundings : W) (spec : HandlerSpec) :
    Outcome S W (Except Error Unit) × W :=
  match Options.ofNames spec.options with
  | .error error => (⟨.error error, e, []⟩, surroundings)
  | .ok options => e.openHandler host surroundings spec.name spec.type options spec.params

def openSpecs [Handler S] (host : Host) (e : Engine S W) (surroundings : W) :
    List HandlerSpec → Outcome S W (Except Error Unit) × W
  | [] => (⟨.ok (), e, []⟩, surroundings)
  | spec :: rest =>
      match e.openSpec host surroundings spec with
      | (⟨.error error, e, events⟩, surroundings) => (⟨.error error, e, events⟩, surroundings)
      | (⟨.ok (), e, events⟩, surroundings) =>
          let (later, surroundings) := openSpecs host e surroundings rest
          ({ later with events := events ++ later.events }, surroundings)

structure Built (S W : Type) where
  engine : Except Error (Engine S W)
  surroundings : W
  events : List (Event S)

def Built.ofOutcome (surroundings : W) (o : Outcome S W (Except Error Unit)) : Built S W :=
  match o.answer with
  | .ok () => ⟨.ok o.engine, surroundings, o.events⟩
  | .error error => ⟨.error error, surroundings, o.events ++ o.engine.dropped⟩

def ofSettings [Handler S] (host : Host) (builtins : List (HandlerType S W)) (surroundings : W)
    (settings : LogSettings) (executable : String) : Built S W :=
  let e := Engine.new host settings.maxTypes.toNat settings.indented builtins
  let started := e.startup host ⟨settings.appName, settings.appVersion, executable⟩
  match started.answer with
  | .error _ => .ofOutcome surroundings started
  | .ok () =>
      let (opened, surroundings) := started.engine.openSpecs host surroundings settings.handlers
      .ofOutcome surroundings { opened with events := started.events ++ opened.events }

end StructuredLog.Engine
