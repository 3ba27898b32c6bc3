import StructuredLog.FileTree
import StructuredLog.Sink.Basic
import StructuredLog.Sink.Rotation
import StructuredLog.Text.Digits
import StructuredLog.Text.Search

/-!
What sinks write to, and how they are opened there: the files, the standard output and the network.
-/

namespace StructuredLog

open Text (Bytes)

/-- The files, what was printed, what was sent, whether other machines can be reached, the time that
rotating files are named for, how many handles were made, and whether the process broke off. -/
structure Surroundings where
  files : FileTree
  printed : Bytes
  sent : List Bytes
  reachable : Bool
  time : String
  handles : Nat
  broken : Bool

namespace Surroundings

def endOfLine : Bytes := [10]

def print (w : Surroundings) (data : Bytes) : Surroundings :=
  { w with printed := w.printed ++ data ++ endOfLine }

/-- A record or line that reaches a sink which treats both alike. -/
def deliver (w : Surroundings) (data : Bytes) : Sink → Surroundings
  | .file (some place) => { w with files := w.files.append place (data ++ endOfLine) }
  | .datagrams (some limit) => { w with sent := w.sent ++ [data.take limit] }
  | _ => w

def afterWrite (w : Surroundings) (s : Severity) (data : Bytes) : Sink → Surroundings
  | .console colors => w.print (Sink.painted colors s data)
  | sink => w.deliver data sink

def afterFormat (w : Surroundings) (text : String) : Sink → Surroundings
  | .console _ => w.print (Text.bytes text)
  | sink => w.deliver (Text.bytes text) sink

def after (w : Surroundings) : Event Sink → Surroundings
  | .wrote handle s data => w.afterWrite s data handle.state
  | .formatted handle _ text => w.afterFormat text handle.state
  | _ => w

def afterAll (w : Surroundings) (events : List (Event Sink)) : Surroundings := events.foldl after w

def handle (w : Surroundings) (sink : Sink) : Handle Sink × Surroundings :=
  (⟨w.handles, sink⟩, { w with handles := w.handles + 1 })

/-- Opens a file to add to it; the directories that are missing on its way are made. -/
def openPath (files : FileTree) (path : String) :
    Except SystemFault (List String × FileTree) × FileTree :=
  match files.openForAppend path with
  | .ok opened => (.ok opened, files)
  | .error _ => match files.makeDirectories (FileTree.parent path) with
    | (files, .error fault) => (.error fault, files)
    | (files, .ok ()) => (files.openForAppend path, files)

/-- Opens a file below a directory. It is a fault if the directory cannot be made. But a file that
cannot be opened there breaks the process off, so that nobody hears of the fault. -/
def openFile (w : Surroundings) (directory name : String) :
    Except SystemFault Sink × Surroundings :=
  match w.files.makeDirectories directory with
  | (files, .error fault) => (.error fault, { w with files })
  | (files, .ok ()) => match openPath files (FileTree.join directory name) with
    | (.ok (place, files), _) => (.ok (.file (some place)), { w with files })
    | (.error fault, files) => (.error fault, { w with files, broken := true })

def scheme : List Char := "udp://".toList

def afterColon? (text : List Char) : Option (List Char) :=
  if text.contains ':' then some (text.reverse.takeWhile (· != ':')).reverse else none

/-- The number of a receiver at an address: decimal digits, perhaps after a plus sign. -/
def receiver? (text : List Char) : Option Nat :=
  let digits := (Text.after? ['+'] text).getD text
  if digits = [] ∨ ¬digits.all Char.isDigit then none
  else
    let n := Text.digitsValue digits
    if n < 65536 then some n else none

def openDatagrams (w : Surroundings) (url : String) (limit : Nat) : Except SystemFault Sink :=
  let address := (Text.after? scheme url.toList).getD url.toList
  match afterColon? address with
  | none => .error .badAddress
  | some text => match receiver? text with
    | none => .error .badReceiver
    | some _ =>
        if w.reachable then .ok (.datagrams (some (max limit 1))) else .error .networkUnreachable

def opened (w : Surroundings) : Except Error Sink → Except Error (Handle Sink) × Surroundings
  | .error error => (.error error, w)
  | .ok sink =>
      let (handle, w) := w.handle sink
      (.ok handle, w)

def liftFault {α : Type} : Except SystemFault α → Except Error α
  | .ok a => .ok a
  | .error fault => .error (.system fault)

end Surroundings

namespace Sink

open Json (Value)

/-- Datagrams are cut to so many bytes where nothing else is said. -/
def usualLimit : Nat := 8192

def usualStem : String := "jlog"

def fileTypeName : String := "file"

def memoryFactory : Factory Sink Surroundings := fun params w =>
  w.opened (.ok (.memory (.new ((params.member? "take_ownership").bind Value.bool? == some true))))

def consoleFactory : Factory Sink Surroundings := fun params w =>
  w.opened (.ok (.console (((params.member? "colors").bind Value.bool?).getD false)))

def fileTarget? (time : String) (params : Value) : Option (String × String) :=
  ((params.member? "directory").bind Value.string?).map fun directory =>
    let stem := ((params.member? "prefix").bind Value.string?).getD usualStem
    let rotation :=
      (((params.member? "rotation").bind Value.string?).map Rotation.ofName).getD .daily
    (directory, rotation.fileName stem time)

def fileFactory : Factory Sink Surroundings := fun params w =>
  match fileTarget? w.time params with
  | none => (.error (.openFailed fileTypeName "缺少 directory 参数"), w)
  | some (directory, name) =>
      let (sink, w) := w.openFile directory name
      w.opened (Surroundings.liftFault sink)

def datagramFactory : Factory Sink Surroundings := fun params w =>
  match (params.member? "url").bind Value.string? with
  | none => (.error (.openFailed "udp" "缺少 url 参数"), w)
  | some url =>
      let limit := ((params.member? "max_datagram").bind Value.unsigned?).map UInt64.toNat
      w.opened (Surroundings.liftFault (w.openDatagrams url (limit.getD usualLimit)))

def typeWith (name : String) (factory : Factory Sink Surroundings) :
    HandlerType Sink Surroundings :=
  ⟨name, true, true, some factory⟩

def memoryType : HandlerType Sink Surroundings := typeWith "memory" memoryFactory

def builtinTypes : List (HandlerType Sink Surroundings) :=
  [typeWith "stdout" consoleFactory, typeWith fileTypeName fileFactory,
    typeWith "udp" datagramFactory]

end Sink

end StructuredLog
