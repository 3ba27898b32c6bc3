import StructuredLog.FileTree
import StructuredLog.Json.Reader
import StructuredLog.Text.Blank

/-!
Sources of configuration: texts with comments. A comment begins at its mark and ends with the
line, so that every line keeps its number.
-/

namespace StructuredLog.Config

open Json (Value Members)
open Text (Bytes)

def commentMark : List Char := ['#', '^', '^']

def stripComment (line : List Char) : List Char := Text.before commentMark line

/-- A line, with the feed that may end it, without its comment. A feed that goes with the comment is
put back. -/
def bareLine (line : List Char) : List Char :=
  let kept := stripComment line
  if kept.length ≠ line.length ∧ line.getLast? = some '\n' then kept ++ ['\n'] else kept

def stripComments (text : List Char) : List Char := (Text.lines '\n' text).flatMap bareLine

/-- Bytes as a text without comments. Every line is read by itself, and the first that is no UTF-8
is refused. -/
def readStripped (data : Bytes) : Except Error (List Char) :=
  match (Text.lines 10 data).mapM Text.decode? with
  | some lines => .ok (lines.flatMap bareLine)
  | none => .error (.system .notUtf8)

def parse (source : String) (text : List Char) : Except Error Value :=
  match Json.read text with
  | .ok v => .ok v
  | .error e => .error (.badSource source (.badText e))

def load (text source : String) : Except Error Value :=
  parse source (stripComments text.toList)

def loadBytes (source : String) (data : Bytes) : Except Error Value := do
  parse source (← readStripped data)

/-- The document of a file. A file that cannot be opened is a bad source; one that cannot be read is
refused by the system. -/
def loadFile (files : FileTree) (path : String) : Except Error Value :=
  match files.open? path with
  | .error fault => .error (.badSource path (.unreadable fault))
  | .ok (.directory _) => .error (.system .isDirectory)
  | .ok (.file data) => loadBytes path data

def toObject (source : String) : Value → Except Error Members
  | .obj members => .ok members
  | v => .error (.badSource source (.notObject v.kind))

/-- The object of a text with comments; a blank text is the empty object. -/
def loadObject (text source : String) : Except Error Members :=
  if (Text.trim text.toList).isEmpty then .ok []
  else do toObject source (← load text source)

/-- The paths that a description of files names: none, a single path, or an array of them. -/
def parsePaths (spec : String) : Except Error (List String) :=
  let spec := String.ofList (Text.trim spec.toList)
  if spec = "" then .ok []
  else if spec.toList.head? ≠ some '[' then .ok [spec]
  else do
    match ← load spec "config files" with
    | .arr items => items.mapM fun item => match item with
        | .str path => .ok path
        | other => .error (.badSource "config files" (.pathNotString other.kind))
    | other => .error (.badSource "config files" (.notArray other.kind))

end StructuredLog.Config
