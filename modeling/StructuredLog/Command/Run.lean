import StructuredLog.Command.Basic
import StructuredLog.Engine.Setup
import StructuredLog.Sink.Surroundings

/-!
Commands carried out: what is printed and written, and how the process ends. Nothing happens any
more once it was asked to end. A command does not end where templates expand without end.
-/

namespace StructuredLog.Command

open Config (Delay Eventual Settings LogSettings)

def failure : Termination := .exit 1

def misuse : Termination := .exit 2

def success : Termination := .exit 0

/-- The exit code of a process that broke off. -/
def broken : Termination := .exit 101

def printText (w : Surroundings) (text : String) : Surroundings := w.print (Text.bytes text)

def printReport (w : Surroundings) (report : Config.Report) : Surroundings × Termination :=
  let w := report.printed.foldl printText w
  match report.terminations, report.result with
  | termination :: _, _ => (w, termination)
  | [], .ok text => (printText w text, success)
  | [], .error _ => (w, failure)

def runConfig (host : Host) (w : Surroundings) (c : ConfigCommand) :
    Delay (Surroundings × Termination) :=
  match Config.parsePaths c.files with
  | .error _ => return (w, failure)
  | .ok files => do
      let report ← Config.Request.run w.files host.hostname { c.request with files }
      return printReport w report

/-- The log where no settings are given: everything goes to the console, in colors. -/
def consoleSettings : LogSettings :=
  { LogSettings.usual with
    handlers := [⟨"console", "stdout", ["all"], .obj [("colors", .bool true)]⟩] }

def settingsFor (host : Host) (w : Surroundings) (c : LogCommand) : Eventual LogSettings :=
  match c.config with
  | none => pure consoleSettings
  | some path => return (← Settings.ofFile w.files host.hostname path).logging

def untilEnd {S : Type} : List (Event S) → List (Event S) × Option Termination
  | [] => ([], none)
  | .ended termination :: _ => ([], some termination)
  | event :: rest =>
      let (before, termination) := untilEnd rest
      (event :: before, termination)

/-- Lets events happen; `next` is what follows if they do not end the process. -/
def happen (w : Surroundings) (events : List (Event Sink))
    (next : Surroundings → Surroundings × Termination) : Surroundings × Termination :=
  match untilEnd events with
  | (before, some termination) => (w.afterAll before, termination)
  | (before, none) => next (w.afterAll before)

def logWith (host : Host) (e : Engine Sink Surroundings) (c : LogCommand) (w : Surroundings) :
    Surroundings × Termination :=
  match c.record?, Options.ofNames c.options with
  | some fields, .ok options =>
      let (e, events) := e.log host c.severity options fields
      happen w (events ++ e.shutdown.events) fun w => (w, success)
  | _, _ => happen w e.dropped fun w => (w, failure)

def logBy (host : Host) (w : Surroundings) (c : LogCommand) (settings : LogSettings) :
    Surroundings × Termination :=
  let built := Engine.ofSettings host Sink.builtinTypes w settings host.command
  happen built.surroundings built.events fun w =>
    match built.engine with
    | .ok e => logWith host e c w
    | .error _ => (w, if w.broken then broken else failure)

def runLog (host : Host) (w : Surroundings) (c : LogCommand) :
    Delay (Surroundings × Termination) := do
  match ← (settingsFor host w c).run with
  | .error _ => return (w, failure)
  | .ok settings => return logBy host w c settings

def versionLines (host : Host) : List String :=
  let rule := String.ofList (List.replicate 39 '═')
  ["", name ++ " - 结构化日志与 JSON 配置", rule,
   "  版本:             " ++ Config.version, "", "构建信息:",
   "  目标平台:         " ++ host.processor, "  操作系统:         " ++ host.system, rule, ""]

def run (host : Host) (w : Surroundings) : Command → Delay (Surroundings × Termination)
  | .config c => runConfig host w c
  | .log c => runLog host w c
  | .version => return ((versionLines host).foldl printText w, success)

def handlerPaths (time : String) (settings : LogSettings) : List String :=
  (settings.handlers.filter (·.type == Sink.fileTypeName)).filterMap fun spec =>
    (Sink.fileTarget? time spec.params).map fun (directory, name) => FileTree.join directory name

/-- The paths of what a command reads and writes, as far as the files that are known so far tell. -/
def paths (host : Host) (w : Surroundings) : Command → Delay (List String)
  | .config c => return (Config.parsePaths c.files).toOption.getD []
  | .log c => do
      match ← (settingsFor host w c).run with
      | .error _ => return c.config.toList
      | .ok settings => return c.config.toList ++ handlerPaths w.time settings
  | .version => return []

def runArguments (host : Host) (w : Surroundings) (args : List String) :
    Delay (Surroundings × Termination) :=
  match read args with
  | .run _ command => command.run host w
  | .about text => return (if text = "" then w else printText w text, success)
  | .refused => return (w, misuse)

end StructuredLog.Command
