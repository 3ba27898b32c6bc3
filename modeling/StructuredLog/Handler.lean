import StructuredLog.Json.Value
import StructuredLog.Options
import StructuredLog.Termination
import StructuredLog.Text.Utf8

/-!
Handlers: what takes the messages of a log. The engine knows a handler only by the answers it
gives, so everything here is stated for any kind of handler and any surroundings in which handlers
are opened.
-/

namespace StructuredLog

open Text (Bytes)

/-- What a handler does with a record, a line of text, and the end of its use. A negative answer
to a record takes the message, so that no later handler gets it. -/
class Handler (S : Type) where
  write : S → Severity → Bytes → Int × S
  format : S → Severity → String → Int × S := fun state s text => write state s (Text.bytes text)
  close : S → S

structure Handle (S : Type) where
  id : Nat
  state : S

abbrev Factory (S W : Type) := Json.Value → W → Except Error (Handle S) × W

structure HandlerType (S W : Type) where
  name : String
  writes : Bool
  formats : Bool
  factory : Option (Factory S W)

structure Instance (S W : Type) where
  name : String
  options : Options
  type : HandlerType S W
  handle : Handle S

/-- What an engine does: it hands over records and lines, takes instances off its list, closes their
handles, asks the process to end and tells the caller. Handles are given as they were before. -/
inductive Event (S : Type) where
  | wrote (handle : Handle S) (severity : Severity) (data : Bytes)
  | formatted (handle : Handle S) (severity : Severity) (text : String)
  | unlisted (handle : Handle S)
  | closed (handle : Handle S)
  | ended (termination : Termination)
  | informed (severity : Severity) (count : Nat)

variable {S W : Type}

def truthText (b : Bool) : String := if b then "true" else "false"

namespace HandlerType

def new (name : String) : HandlerType S W := ⟨name, true, true, none⟩

def describe (t : HandlerType S W) : String :=
  s!"HandlerType \x7b name: {Text.quoted t.name}, has_write: {truthText t.writes}, " ++
    s!"has_format: {truthText t.formats}, openable: {truthText t.factory.isSome} \x7d"

end HandlerType

namespace Instance

def describe (i : Instance S W) : String :=
  s!"HandlerInstance \x7b name: {Text.quoted i.name}, options: LogOptions({i.options.bits}), " ++
    s!"type: {Text.quoted i.type.name} \x7d"

variable [Handler S]

def write (i : Instance S W) (s : Severity) (data : Bytes) : Int × Instance S W :=
  let (answer, state) := Handler.write i.handle.state s data
  (answer, { i with handle := { i.handle with state } })

/-- Hands over lines one after another, whatever the answers are. -/
def format (i : Instance S W) (s : Severity) : List String → Instance S W × List (Event S)
  | [] => (i, [])
  | text :: rest =>
      let (_, state) := Handler.format i.handle.state s text
      let (after, events) := format { i with handle := { i.handle with state } } s rest
      (after, .formatted i.handle s text :: events)

end Instance

end StructuredLog
