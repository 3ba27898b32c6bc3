import StructuredLog.Config.Pattern
import StructuredLog.Json.Printer
import StructuredLog.Json.Reader
import StructuredLog.Error

/-!
Variables in texts and documents. The first variable of the text that has a value is replaced
wherever it occurs, and then the text is searched again from its beginning, until no variable has
a value.
-/

namespace StructuredLog.Config

open Json (Value Members)

/-- Whether variables are replaced in the text of a document, which may change its structure, or
only inside its strings and keys. -/
inductive Substitution where
  | text
  | tree
deriving DecidableEq

def Substitution.tags : Table Substitution := [("text", .text), ("tree", .tree)]

def Substitution.tag : Substitution → String
  | .text => "text"
  | .tree => "tree"

def Substitution.decoder : Json.Decoder Substitution := Json.Decoder.variant tags

def maxSubstitutions : Nat := 10000

/-- The value of a variable as it stands in a text: a string without quotes, anything else as a
document on one line. -/
def rendered : Value → List Char
  | .str s => s.toList
  | v => v.text .compact

def firstDefined? (vars : Members) (text : List Char) : Option (List Char × Value) :=
  (variableMarks.names text).findSome? fun name =>
    (Table.get? (String.ofList name) vars).map fun v => (name, v)

def substituteAtMost (vars : Members) : Nat → List Char → Except Error (List Char)
  | left, text =>
      match firstDefined? vars text with
      | none => .ok text
      | some (name, v) =>
          let call := variableMarks.around name
          if Text.occurs call (rendered v) then
            .error (.badTemplate (.selfReference (String.ofList call)))
          else match left with
            | 0 => .error (.badTemplate (.tooManySubstitutions maxSubstitutions))
            | left + 1 => substituteAtMost vars left (Text.replaceAll call (rendered v) text)

def substitute (vars : Members) (text : List Char) : Except Error (List Char) :=
  substituteAtMost vars maxSubstitutions text

def substituteString (vars : Members) (s : String) : Except Error String :=
  (substitute vars s.toList).map String.ofList

mutual

/-- Replaces variables inside strings and keys. Of members whose keys become equal the last value
stays, at the place of the first. -/
def substituteTree (vars : Members) : Value → Except Error Value
  | .str s => (substituteString vars s).map .str
  | .arr items => (substituteItems vars items).map .arr
  | .obj members => (substituteMembers vars [] members).map .obj
  | v => .ok v

def substituteItems (vars : Members) : List Value → Except Error (List Value)
  | [] => .ok []
  | v :: rest => do
      let v ← substituteTree vars v
      let rest ← substituteItems vars rest
      .ok (v :: rest)

def substituteMembers (vars : Members) (done : Members) :
    List (String × Value) → Except Error Members
  | [] => .ok done
  | (key, v) :: rest => do
      let key ← substituteString vars key
      let v ← substituteTree vars v
      substituteMembers vars (Table.put key v done) rest

end

def substituteText (vars : Members) (v : Value) : Except Error Value := do
  let text ← substitute vars (v.text .compact)
  match Json.read text with
  | .ok v => .ok v
  | .error e => .error (.badSource "replace_vars" (.badSubstitution e))

def replaceVariables (mode : Substitution) (vars : Members) (v : Value) : Except Error Value :=
  match mode with
  | .text => substituteText vars v
  | .tree => substituteTree vars v

end StructuredLog.Config
