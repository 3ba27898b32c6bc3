import StructuredLog.Handler

/-!
The kinds of handlers that there are: memories, the console, files and datagrams, and handlers that
always give the same answer. Only a memory and a fixed answer can take a message.
-/

namespace StructuredLog

open Text (Bytes)

inductive Recollection where
  | record (severity : Severity) (text : String)
  | line (severity : Severity) (text : String)

/-- A memory keeps what it is given, and how often it was closed. -/
structure Memory where
  takes : Bool
  kept : List Recollection
  closes : Nat

namespace Memory

def new (takes : Bool) : Memory := ⟨takes, [], 0⟩

def keep (m : Memory) (r : Recollection) : Memory := { m with kept := m.kept ++ [r] }

def clear (m : Memory) : Memory := { m with kept := [] }

def records (m : Memory) : List String :=
  m.kept.filterMap fun r => match r with
    | .record _ text => some text
    | .line _ _ => none

def lines (m : Memory) : List String :=
  m.kept.filterMap fun r => match r with
    | .record _ _ => none
    | .line _ text => some text

end Memory

/-- A handler by what it writes to. A file has its place and datagrams their longest length, as long
as they are open. -/
inductive Sink where
  | memory (m : Memory)
  | console (colors : Bool)
  | file (place : Option (List String))
  | datagrams (limit : Option Nat)
  | fixed (answer : Int)

namespace Sink

def takeMessage : Int := -1

def write (sink : Sink) (s : Severity) (data : Bytes) : Int × Sink :=
  match sink with
  | .memory m =>
      (if m.takes then takeMessage else 0, .memory (m.keep (.record s (Text.shown data))))
  | .fixed answer => (answer, sink)
  | _ => (0, sink)

/-- A line is a record like any other to a handler with a fixed answer. -/
def format (sink : Sink) (s : Severity) (text : String) : Int × Sink :=
  match sink with
  | .memory m => (0, .memory (m.keep (.line s text)))
  | .fixed _ => sink.write s (Text.bytes text)
  | _ => (0, sink)

def close : Sink → Sink
  | .memory m => .memory { m with closes := m.closes + 1 }
  | .file _ => .file none
  | .datagrams _ => .datagrams none
  | sink => sink

instance : Handler Sink := ⟨write, format, close⟩

def color : Severity → String
  | .emergency | .alert | .critical | .error => "\x1b[1;31m"
  | .warning => "\x1b[1;33m"
  | .notice | .info => "\x1b[0;32m"
  | .debug => "\x1b[0;36m"
  | .audit | .monitor => "\x1b[0;35m"

def plain : String := "\x1b[0m"

/-- A record on the console; only records are colored. -/
def painted (colors : Bool) (s : Severity) (data : Bytes) : Bytes :=
  if colors then Text.bytes (color s) ++ data ++ Text.bytes plain else data

end Sink

end StructuredLog
