import StructuredLog.Counters
import StructuredLog.Dump
import StructuredLog.Engine.Walk

/-!
The engine of a log: the known handler types, the instances in the order in which they were added,
and what is remembered between calls. A call is counted, walks through the instances, may ask the
process to end, and may inform the caller of the count.
-/

namespace StructuredLog

open Record (Pool Fields)

structure AppInfo where
  name : String
  version : String
  executable : String
deriving DecidableEq

structure Engine (S W : Type) where
  maxTypes : Nat
  indented : Bool
  builtins : List (HandlerType S W)
  app : Option AppInfo
  identity : Identity
  types : Table (HandlerType S W)
  instances : Table (Instance S W)
  pool : Pool
  slot : Option Nat
  lastMessage : String
  counters : Counters
  informs : Bool

/-- The answer of an operation, the engine after it, and what happened, in order. -/
structure Outcome (S W : Type) (α : Type) where
  answer : α
  engine : Engine S W
  events : List (Event S)

variable {S W : Type}

namespace Engine

/-- An engine that was not started yet; `builtins` are the types that it is started with. -/
def new (host : Host) (maxTypes : Nat) (indented : Bool) (builtins : List (HandlerType S W)) :
    Engine S W where
  maxTypes
  indented
  builtins
  app := none
  identity := .current host
  types := []
  instances := []
  pool := .withCapacity Pool.usualCapacity
  slot := none
  lastMessage := ""
  counters := .zero
  informs := false

def isStarted (e : Engine S W) : Bool := e.app.isSome

def describe (e : Engine S W) : String :=
  s!"LogEngine \x7b started: {truthText e.isStarted}, " ++
    s!"handlers: {Text.quotedList (Table.keys e.instances)}, " ++
    s!"types: {Text.quotedList (Table.keys e.types)} \x7d"

def resetCounters (e : Engine S W) : Engine S W := { e with counters := .zero }

def setInforms (e : Engine S W) (informs : Bool) : Engine S W := { e with informs }

def messageCapacity : Nat := 256

/-- How the options of a call ask the process to end; the most severe way counts. -/
def termination? (options : Options) : Option Termination :=
  if options.contains .abort then some .abort
  else if options.contains .exitNegative then some (.exit (-1))
  else if options.contains .exitZero then some (.exit 0)
  else none

def endings (options : Options) : List (Event S) :=
  ((termination? options).map Event.ended).toList

def setting (host : Host) (e : Engine S W) (id : Nat) : Setting :=
  ⟨host.timeFor id, e.identity, e.indented⟩

def spread [Handler S] (host : Host) (e : Engine S W) (m : Message) : Walked Pool S W :=
  walk (deliver (e.setting host) e.slot (Stack.enclose host.frames) m) e.pool e.instances

/-- Logs a message. It is counted and remembered whether or not any instance gets it. -/
def log [Handler S] (host : Host) (e : Engine S W) (s : Severity) (options : Options)
    (fields : Fields) : Engine S W × List (Event S) :=
  let counters := e.counters.increment s
  let lastMessage := match fields.message? with
    | some text => String.ofList (Text.clip messageCapacity text.toList)
    | none => e.lastMessage
  let w := e.spread host ⟨s, options, fields⟩
  let informed := if e.informs then [Event.informed s (counters.count s)] else []
  ({ e with counters, lastMessage, pool := w.carried, instances := w.instances },
    w.events ++ endings options ++ informed)

/-- Hands bytes over as they are. They are not counted, and nobody is informed. -/
def logRaw [Handler S] (e : Engine S W) (s : Severity) (options : Options) (data : Text.Bytes) :
    Engine S W × List (Event S) :=
  let w := walk (deliverRaw s data) () e.instances
  ({ e with instances := w.instances }, w.events ++ endings options)

def stamped (host : Host) (text : String) : String := host.time ++ " - " ++ text

def say [Handler S] (host : Host) (e : Engine S W) (s : Severity) (text : String) :
    Engine S W × List (Event S) :=
  e.logRaw s .none (Text.bytes (stamped host text))

section Levels

variable [Handler S] (host : Host) (e : Engine S W)

def alert (options : Options) (fields : Fields) : Engine S W × List (Event S) :=
  e.log host .alert options fields

def critical (options : Options) (fields : Fields) : Engine S W × List (Event S) :=
  e.log host .critical options fields

def error (options : Options) (fields : Fields) : Engine S W × List (Event S) :=
  e.log host .error options fields

def warning (options : Options) (fields : Fields) : Engine S W × List (Event S) :=
  e.log host .warning options fields

def info (options : Options) (fields : Fields) : Engine S W × List (Event S) :=
  e.log host .info options fields

def debug (options : Options) (fields : Fields) : Engine S W × List (Event S) :=
  e.log host .debug options fields

def monitor (options : Options) (fields : Fields) : Engine S W × List (Event S) :=
  e.log host .monitor options fields

def traceMessage (text : String) : Engine S W × List (Event S) := e.say host .debug text

def infoMessage (text : String) : Engine S W × List (Event S) := e.say host .info text

end Levels

/-- Shows lines to all instances whose types have lines. -/
def display [Handler S] (e : Engine S W) (s : Severity) (lines : List String) :
    Engine S W × List (Event S) :=
  let w := walk (deliverLines s lines) () e.instances
  ({ e with instances := w.instances }, w.events)

def displayBytes [Handler S] (host : Host) (e : Engine S W) (data : Text.Bytes) (label : String) :
    Engine S W × List (Event S) :=
  e.display .debug
    (stamped host s!"{label} ({data.length} bytes)" :: (Dump.lines data).map String.ofList)

def displayDocument [Handler S] (host : Host) (e : Engine S W) (v : Json.Value) (label : String) :
    Engine S W × List (Event S) :=
  e.display .debug
    (stamped host label :: (Text.splitOn '\n' (v.text (.indented 0))).map String.ofList)

def displayHex [Handler S] (host : Host) (e : Engine S W) (data : Text.Bytes) (label : String) :
    Engine S W × List (Event S) :=
  e.display .debug [stamped host s!"{label} [{data.length}] {String.ofList (Dump.hex data)}"]

end Engine

end StructuredLog
