import StructuredLog.Json.Printer
import StructuredLog.Record.Buffer

/-!
The fields of a message: a list of keys and values, in order and with repetitions.
-/

namespace StructuredLog.Record

inductive FieldValue where
  | str (s : String)
  | int (i : Int)
  | real (x : Binary64)
  | null
  | json (v : Json.Value)

abbrev Fields := List (String × FieldValue)

/-- A document on one line with single quotes, so that it can stand in a string. -/
def singleQuoted (v : Json.Value) : String :=
  String.ofList ((v.text .compact).map fun c => if c = '"' then '\x27' else c)

def FieldValue.appendTo (key : String) (b : Buffer) : FieldValue → Buffer
  | .str s => b.appendString key s
  | .int i => b.appendInteger key i
  | .real x => b.appendReal key x
  | .null => b.appendNull key
  | .json v => b.appendString key (singleQuoted v)

namespace Fields

def appendTo (b : Buffer) : Fields → Buffer
  | [] => b
  | (key, value) :: rest => appendTo (value.appendTo key b) rest

def get? (key : String) (fields : Fields) : Option FieldValue := Table.get? key fields

def messageKey : String := "msg"

/-- The last message among the fields; a message is a string. -/
def message? : Fields → Option String
  | [] => none
  | (key, value) :: rest =>
      match message? rest, value with
      | some later, _ => some later
      | none, .str s => if key = messageKey then some s else none
      | none, _ => none

end Fields

end StructuredLog.Record
