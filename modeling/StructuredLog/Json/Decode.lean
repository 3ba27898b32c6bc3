import StructuredLog.Json.Printer
import StructuredLog.Text.Quoted

/-!
Typed values out of documents. A record may be written as an object, whose members come in any order
and may be absent where there is a default, or as an array of its fields.
-/

namespace StructuredLog.Json

inductive Expected where
  | string
  | boolean
  | unsigned
  | sequence
  | path
  | unit
  | variant
  | record (name : String)

def Expected.text : Expected → String
  | .string => "a string"
  | .boolean => "a boolean"
  | .unsigned => "usize"
  | .sequence => "a sequence"
  | .path => "path string"
  | .unit => "unit"
  | .variant => "string or map"
  | .record name => "struct " ++ name

inductive DecodeError where
  | invalidType (found : Value) (expected : Expected)
  | negative (n : Integer)
  | notOneKey
  | unknownVariant (name : String) (known : List String)
  | missingField (name : String)
  | tooFew (count : Nat) (record : String) (fields : Nat)
  | tooMany (count : Nat)
  | stated (text : String)

def Value.described : Value → String
  | .null => "null"
  | .bool b => s!"boolean `{b}`"
  | .num (.integer n) => s!"integer `{String.ofList (intText n.val)}`"
  | .num (.real x) => s!"floating point `{String.ofList (realText x.val)}`"
  | .str s => "string " ++ Text.quoted s
  | .arr _ => "sequence"
  | .obj _ => "map"

def listedVariants : List String → String
  | [a, b] => s!"`{a}` or `{b}`"
  | known => "one of " ++ String.intercalate ", " (known.map fun name => s!"`{name}`")

def DecodeError.message : DecodeError → String
  | .invalidType found expected => s!"invalid type: {found.described}, expected {expected.text}"
  | .negative n => s!"invalid value: integer `{String.ofList (intText n.val)}`, expected usize"
  | .notOneKey => "invalid value: map, expected map with a single key"
  | .unknownVariant name known => s!"unknown variant `{name}`, expected {listedVariants known}"
  | .missingField name => s!"missing field `{name}`"
  | .tooFew count record fields =>
      s!"invalid length {count}, expected struct {record} with {fields} elements"
  | .tooMany count => s!"invalid length {count}, expected fewer elements in array"
  | .stated text => text

abbrev Decoder (α : Type) := Value → Except DecodeError α

namespace Decoder

variable {α : Type}

def any : Decoder Value := fun v => .ok v

def string : Decoder String
  | .str s => .ok s
  | v => .error (.invalidType v .string)

def path : Decoder String
  | .str s => .ok s
  | v => .error (.invalidType v .path)

def boolean : Decoder Bool
  | .bool b => .ok b
  | v => .error (.invalidType v .boolean)

def unsigned : Decoder UInt64
  | .num (.integer n) => match n.unsigned? with
    | some u => .ok u
    | none => .error (.negative n)
  | v => .error (.invalidType v .unsigned)

def list (item : Decoder α) : Decoder (List α)
  | .arr items => items.mapM item
  | v => .error (.invalidType v .sequence)

def optional (value : Decoder α) : Decoder (Option α)
  | .null => .ok none
  | v => (value v).map some

def knownVariant (known : Table α) (name : String) : Except DecodeError α :=
  match Table.get? name known with
  | some value => .ok value
  | none => .error (.unknownVariant name (Table.keys known))

/-- One of a list of named values: its name, or an object with the name as its only key and null. -/
def variant (known : Table α) : Decoder α
  | .str name => knownVariant known name
  | .obj [(name, content)] => do
      let value ← knownVariant known name
      match content with
      | .null => .ok value
      | found => .error (.invalidType found .unit)
  | .obj _ => .error .notOneKey
  | v => .error (.invalidType v .variant)

/-- A field of a record of type `α`: how a value of it goes into a record. -/
structure Field (α : Type) where
  name : String
  required : Bool
  set : Value → α → Except DecodeError α

def field {β : Type} (name : String) (decode : Decoder β) (set : β → α → α) : Field α :=
  ⟨name, false, fun v record => (decode v).map (set · record)⟩

def requiredField {β : Type} (name : String) (decode : Decoder β) (set : β → α → α) : Field α :=
  { field name decode set with required := true }

/-- Members in the order of the object; the unknown ones are passed over. -/
def fromMembers (fields : List (Field α)) : List (String × Value) → α → Except DecodeError α
  | [], record => .ok record
  | (key, v) :: rest, record =>
      match fields.find? (·.name == key) with
      | some f => do fromMembers fields rest (← f.set v record)
      | none => fromMembers fields rest record

def fromItems (record : String) (total : Nat) :
    Nat → List (Field α) → List Value → α → Except DecodeError α
  | index, f :: fields, v :: items, built => do
      fromItems record total (index + 1) fields items (← f.set v built)
  | index, f :: fields, [], built =>
      if f.required then .error (.tooFew index record total)
      else fromItems record total (index + 1) fields [] built
  | index, [], items, built =>
      if items.isEmpty then .ok built else .error (.tooMany (index + items.length))

/-- A record with the given fields; `initial` holds the defaults. -/
def record (name : String) (fields : List (Field α)) (initial : α) : Decoder α
  | .obj members => do
      let record ← fromMembers fields members initial
      match fields.find? fun f => f.required && !Table.has f.name members with
      | some f => .error (.missingField f.name)
      | none => .ok record
  | .arr items => fromItems name fields.length 0 fields items initial
  | v => .error (.invalidType v (.record name))

end Decoder

end StructuredLog.Json
