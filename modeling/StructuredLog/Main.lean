import Std.Time.Format
import StructuredLog.Command.Run

/-!
The program: the files that a command needs are read, the command is carried out on them, and what
it printed and wrote is passed on. Other machines are never reached.
-/

namespace StructuredLog.Machine

open Text (Bytes)

def bytesOf (data : ByteArray) : Bytes := data.toList

def arrayOf (data : Bytes) : ByteArray := ⟨data.toArray⟩

def pathOf (place : List String) : String := "/" ++ String.intercalate "/" place

def placeOf (path : String) : List String :=
  ((Text.splitOn '/' path.toList).filter (· ≠ [])).map String.ofList

/-- Where a rotating file gets its name from: the time in Greenwich. -/
def stampFormat : String := "uuuu-MM-dd-HH-mm"

def timeFormat : String := "uuuu-MM-dd'T'HH:mm:ss.SSSSSSxxx"

/-- The time by the clock of this place, or else by that of Greenwich. -/
def now : IO Std.Time.DateTime := do
  try Std.Time.DateTime.now
  catch _ => return .ofTimestampWithZone (← Std.Time.Timestamp.now) .UTC

def firstLine (path : String) : IO String := do
  try return (((← IO.FS.readFile path).splitOn "\n").headD "")
  catch _ => return ""

def processNumber : IO Nat := do
  try return ((lastName? (← IO.FS.realPath "/proc/self").toString).bind String.toNat?).getD 0
  catch _ => return 0

def host (time : Std.Time.DateTime) : IO Host := do
  return {
    hostname := ← firstLine "/proc/sys/kernel/hostname"
    processor := "x86_64"
    system := "linux"
    pid := ← processNumber
    command := (← IO.appPath).toString
    time := time.format timeFormat
    timeFor := fun _ => time.format timeFormat
    frames := [] }

def loadPlace (tree : FileTree) (place : List String) : IO FileTree := do
  let path := (← IO.currentDir) / pathOf place
  if (tree.root.find? place).isSome then return tree
  else if ← path.isDir then return tree.set place (.directory [])
  else if ← path.pathExists then return tree.set place (.file (bytesOf (← IO.FS.readBinFile path)))
  else return tree

def loadAlong (tree : FileTree) (spot : Spot) : List String → IO FileTree
  | [] => return tree
  | name :: rest => match spot.step name with
    | .error _ => return tree
    | .ok next => do
        let tree ← loadPlace tree next.place
        loadAlong tree { next with node := tree.root.find? next.place } rest

def load (tree : FileTree) (paths : List String) : IO FileTree :=
  paths.foldlM (fun tree path => match tree.namesOf path with
    | .ok (start, names) => loadAlong tree ⟨[], some tree.root, []⟩ (start ++ names)
    | .error _ => return tree) tree

/-- Gives a computation more and more levels, until it comes to something. -/
def await {α : Type} (x : Config.Delay α) : IO α := do
  let mut levels := 128
  repeat
    match x.within levels with
    | some a => return a
    | none => levels := levels + levels
  throw (.userError "nothing came of it")

/-- The files that a command needs. Those of its handlers are known once its settings are read. -/
def loadFor (host : Host) (w : Surroundings) (command : Command) : IO Surroundings := do
  let w := { w with files := ← load w.files (← await (command.paths host w)) }
  return { w with files := ← load w.files (← await (command.paths host w)) }

/-- Makes a directory that was not there, or adds to a file what it did not hold before. -/
def savePlace (before : FileTree) (place : List String) : Node → IO Unit
  | .directory _ => do
      if (before.root.find? place).isNone then IO.FS.createDir (pathOf place)
  | .file data => do
      let held := match before.root.find? place with
        | some (.file old) => old.length
        | _ => 0
      IO.FS.withFile (pathOf place) .append fun handle => handle.write (arrayOf (data.drop held))

def save (before after : FileTree) : IO Unit :=
  (after.root.listing []).forM fun (place, node) => savePlace before place node

/-- The code that a process leaves behind; one that was aborted leaves that of its signal. -/
def exitCode : Termination → UInt32
  | .exit code => UInt32.ofNat (code % 256).toNat
  | .abort => 134

def execute (args : List String) : IO UInt32 := do
  let time ← now
  let host ← host time
  let files := FileTree.empty (placeOf (← IO.currentDir).toString)
  let stamp := Std.Time.DateTime.ofTimestampWithZone time.toTimestamp .UTC
  let start : Surroundings := ⟨files, [], [], false, stamp.format stampFormat, 0, false⟩
  let start ← match Command.read args with
    | .run _ command => loadFor host start command
    | _ => pure start
  let (w, termination) ← await (Command.runArguments host start args)
  save start.files w.files
  let out ← IO.getStdout
  out.write (arrayOf w.printed)
  out.flush
  return exitCode termination

end StructuredLog.Machine

def main (args : List String) : IO UInt32 := StructuredLog.Machine.execute args
