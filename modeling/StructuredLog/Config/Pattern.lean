import StructuredLog.Text.Search

/-!
Marks in texts: a name between an opening and a closing mark. The first opening mark counts that
has a closing one on its line, and the name is as short as it can be but never empty.
-/

namespace StructuredLog.Config

structure Marks where
  opening : List Char
  closing : List Char

/-- The key of an object that is written once for every number of a range. -/
def objectMarks : Marks := ⟨['{', '^', '^'], ['^', '^', '}']⟩

/-- The key of an array that has an item for every number of a range. -/
def arrayMarks : Marks := ⟨['[', '^', '^'], ['^', '^', ']']⟩

def variableMarks : Marks := ⟨['(', '^', '^'], ['^', '^', ')']⟩

namespace Marks

/-- The shortest name before a closing mark and what follows it; `started` is whether the name has a
character already. -/
def nameBefore (closing : List Char) : Bool → List Char → Option (List Char × List Char)
  | _, [] => none
  | started, c :: rest =>
      match if started then Text.after? closing (c :: rest) else none with
      | some following => some ([], following)
      | none =>
          if c = '\n' then none
          else (nameBefore closing true rest).map fun (name, following) => (c :: name, following)

def nameAtFront (marks : Marks) (text : List Char) : Option (List Char × List Char) :=
  (Text.after? marks.opening text).bind (nameBefore marks.closing false)

def firstName (marks : Marks) : List Char → Option (List Char)
  | [] => none
  | c :: rest =>
      match marks.nameAtFront (c :: rest) with
      | some (name, _) => some name
      | none => marks.firstName rest

def escaped (text : List Char) : List Char := text.flatMap fun c => ['\\', c]

/-- What is searched for, as a regular expression. -/
def pattern (marks : Marks) : String :=
  String.ofList (escaped marks.opening ++ ['(', '.', '+', '?', ')'] ++ escaped marks.closing)

def around (marks : Marks) (name : List Char) : List Char := marks.opening ++ name ++ marks.closing

/-- All names in a text, from the left and without overlap, after passing over the first `skip`
characters. -/
def namesFrom (marks : Marks) : Nat → List Char → List (List Char)
  | _, [] => []
  | skip + 1, _ :: rest => marks.namesFrom skip rest
  | 0, c :: rest =>
      match marks.nameAtFront (c :: rest) with
      | some (name, _) => name :: marks.namesFrom ((marks.around name).length - 1) rest
      | none => marks.namesFrom 0 rest

def names (marks : Marks) (text : List Char) : List (List Char) := marks.namesFrom 0 text

end Marks

end StructuredLog.Config
