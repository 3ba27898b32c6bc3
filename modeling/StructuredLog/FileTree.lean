import StructuredLog.Error
import StructuredLog.Table
import StructuredLog.Text.Search
import StructuredLog.Text.Utf8

/-!
Files and directories. Paths are walked name by name from the root, so that every name on the way
has to be a directory, and two points lead back to the directory that the walk came from.
-/

namespace StructuredLog

open Text (Bytes)

inductive Node where
  | file (data : Bytes)
  | directory (children : List (String × Node))

namespace Node

def child? (name : String) : Node → Option Node
  | .directory children => Table.get? name children
  | .file _ => none

def find? : List String → Node → Option Node
  | [], node => some node
  | name :: rest, node => (node.child? name).bind (find? rest)

/-- Puts a node at a place below another one, where nothing but directories may be on the way. Those
that are missing are made. -/
def put (new : Node) : List String → Node → Node
  | [], _ => new
  | _ :: _, .file data => .file data
  | name :: rest, .directory children =>
      let old := (Table.get? name children).getD (.directory [])
      .directory (Table.put name (put new rest old) children)

end Node

mutual

/-- Everything below a node with its place; a directory comes before what is in it. -/
def Node.listing (place : List String) : Node → List (List String × Node)
  | .file _ => []
  | .directory children => childrenListing place children

def childrenListing (place : List String) : List (String × Node) → List (List String × Node)
  | [] => []
  | (name, node) :: rest =>
      let here := place ++ [name]
      (here, node) :: (node.listing here ++ childrenListing place rest)

end

structure FileTree where
  root : Node
  here : List String

/-- Where a walk has come to: the names from the root with the last one first, what is there, and
the directories that were left behind, the nearest first. -/
structure Spot where
  names : List String
  node : Option Node
  above : List Node

namespace Spot

def place (spot : Spot) : List String := spot.names.reverse

/-- The longest name in bytes. -/
def maxName : Nat := 255

/-- The directory above; the root stands above itself. -/
def up (spot : Spot) : Spot :=
  match spot.names, spot.above with
  | _ :: names, node :: above => ⟨names, some node, above⟩
  | _, _ => spot

def step (spot : Spot) (name : String) : Except SystemFault Spot :=
  match spot.node with
  | none => .error .noEntry
  | some (.file _) => .error .notDirectory
  | some (.directory children) =>
      if name = "" ∨ name = "." then .ok spot
      else if name = ".." then .ok spot.up
      else if maxName < name.utf8ByteSize then .error .nameTooLong
      else .ok ⟨name :: spot.names, Table.get? name children, .directory children :: spot.above⟩

def walk (spot : Spot) : List String → Except SystemFault Spot
  | [] => .ok spot
  | name :: rest => match spot.step name with
    | .ok next => next.walk rest
    | .error fault => .error fault

end Spot

namespace FileTree

def empty (here : List String) : FileTree := ⟨Node.put (.directory []) here (.directory []), here⟩

def set (tree : FileTree) (place : List String) (node : Node) : FileTree :=
  { tree with root := Node.put node place tree.root }

def walk (tree : FileTree) (names : List String) : Except SystemFault Spot :=
  Spot.walk ⟨[], some tree.root, []⟩ names

/-- The longest path in bytes. -/
def maxPath : Nat := 4095

def namesOf (tree : FileTree) (path : String) : Except SystemFault (List String × List String) :=
  if path.toList.contains '\x00' then .error .zeroInPath
  else if path = "" then .error .noEntry
  else if maxPath < path.utf8ByteSize then .error .nameTooLong
  else
    let names := (Text.splitOn '/' path.toList).map String.ofList
    .ok (if path.toList.head? = some '/' then [] else tree.here, names)

def locate (tree : FileTree) (path : String) : Except SystemFault Spot := do
  let (start, names) ← tree.namesOf path
  tree.walk (start ++ names)

def open? (tree : FileTree) (path : String) : Except SystemFault Node := do
  match (← tree.locate path).node with
  | some node => .ok node
  | none => .error .noEntry

def read (tree : FileTree) (path : String) : Except SystemFault Bytes := do
  match ← tree.open? path with
  | .file data => .ok data
  | .directory _ => .error .isDirectory

/-- Makes one directory whose parent is there; `names` are those of its path, the last one first. -/
def makeDirectory (tree : FileTree) (start names : List String) : Except SystemFault FileTree := do
  let spot ← tree.walk (start ++ names.reverse)
  match spot.node with
  | none => .ok (tree.set spot.place (.directory []))
  | some _ => .error .entryExists

def isDirectory (tree : FileTree) (start names : List String) : Bool :=
  match tree.walk (start ++ names.reverse) with
  | .ok ⟨_, some (.directory _), _⟩ => true
  | _ => false

/-- Makes a directory; when something above it is missing, that is made first. What was made stays
when a later step fails. A directory that is there already is no failure. -/
def makeAfter (tree : FileTree) (start names : List String)
    (makeParents : FileTree → FileTree × Except SystemFault Unit) :
    FileTree × Except SystemFault Unit :=
  let unlessThere (tree : FileTree) (fault : SystemFault) : FileTree × Except SystemFault Unit :=
    (tree, if tree.isDirectory start names then .ok () else .error fault)
  match tree.makeDirectory start names with
  | .ok tree => (tree, .ok ())
  | .error .noEntry =>
      match makeParents tree with
      | (tree, .error fault) => (tree, .error fault)
      | (tree, .ok ()) => match tree.makeDirectory start names with
        | .ok tree => (tree, .ok ())
        | .error fault => unlessThere tree fault
  | .error fault => unlessThere tree fault

def makeAll (tree : FileTree) (start : List String) :
    List String → FileTree × Except SystemFault Unit
  | [] => (tree, .ok ())
  | last :: before =>
      tree.makeAfter start (last :: before) fun tree => tree.makeAll start before

/-- The names of a path that part directories: not empty ones, and no point after the first. -/
def plainNames : List String → List String
  | [] => []
  | first :: rest =>
      (if first = "" then [] else [first]) ++ rest.filter fun n => n ≠ "" ∧ n ≠ "."

/-- Makes sure that a directory is there. The empty path is the working directory itself. -/
def makeDirectories (tree : FileTree) (path : String) : FileTree × Except SystemFault Unit :=
  if path = "" then (tree, .ok ())
  else match tree.namesOf path with
    | .error fault => (tree, .error fault)
    | .ok (start, names) =>
        tree.makeAfter start (names.reverse.dropWhile (· = "")) fun tree =>
          tree.makeAll start (plainNames names).reverse.tail

/-- The place of the file at a path, which is made empty when it is missing. -/
def openForAppend (tree : FileTree) (path : String) :
    Except SystemFault (List String × FileTree) := do
  let spot ← tree.locate path
  match spot.node with
  | some (.file _) => .ok (spot.place, tree)
  | none => .ok (spot.place, tree.set spot.place (.file []))
  | some (.directory _) => .error .isDirectory

def append (tree : FileTree) (place : List String) (data : Bytes) : FileTree :=
  match tree.root.find? place with
  | some (.file old) => tree.set place (.file (old ++ data))
  | some (.directory _) => tree
  | none => tree.set place (.file data)

def join (directory name : String) : String :=
  if name.toList.head? = some '/' then name
  else if directory = "" then name
  else if directory.toList.getLast? = some '/' then directory ++ name
  else directory ++ "/" ++ name

def parent (path : String) : String :=
  String.ofList ((path.toList.reverse.dropWhile (· != '/')).drop 1).reverse

end FileTree

end StructuredLog
