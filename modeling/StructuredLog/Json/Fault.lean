/-!
What can be wrong with the text of a document, and where.
-/

namespace StructuredLog.Json

inductive Fault where
  | endInValue
  | endInList
  | endInObject
  | endInString
  | noValue
  | badWord
  | noColon
  | noListEnd
  | noObjectEnd
  | trailingComma
  | trailingCharacters
  | keyNotString
  | badNumber
  | numberOutOfRange
  | controlCharacter
  | badEscape
  | loneSurrogate
  | endOfHexEscape
  | tooDeep
deriving DecidableEq

def Fault.message : Fault → String
  | .endInValue => "EOF while parsing a value"
  | .endInList => "EOF while parsing a list"
  | .endInObject => "EOF while parsing an object"
  | .endInString => "EOF while parsing a string"
  | .noValue => "expected value"
  | .badWord => "expected ident"
  | .noColon => "expected `:`"
  | .noListEnd => "expected `,` or `]`"
  | .noObjectEnd => "expected `,` or `\x7d`"
  | .trailingComma => "trailing comma"
  | .trailingCharacters => "trailing characters"
  | .keyNotString => "key must be a string"
  | .badNumber => "invalid number"
  | .numberOutOfRange => "number out of range"
  | .controlCharacter => "control character (\\u0000-\\u001F) found while parsing a string"
  | .badEscape => "invalid escape"
  | .loneSurrogate => "lone leading surrogate in hex escape"
  | .endOfHexEscape => "unexpected end of hex escape"
  | .tooDeep => "recursion limit exceeded"

/-- A place in a text: the line, counted from one, and how many bytes of it come before. -/
structure Position where
  line : Nat
  column : Nat
deriving DecidableEq

namespace Position

def start : Position := ⟨1, 0⟩

def after (p : Position) (count : Nat) (c : Char) : Position :=
  if count = 0 then p
  else if c = '\n' then ⟨p.line + 1, 0⟩
  else ⟨p.line, p.column + min count c.utf8Size⟩

def next (p : Position) (c : Char) : Position := p.after c.utf8Size c

end Position

structure ReadError where
  fault : Fault
  position : Position
deriving DecidableEq

def ReadError.message (e : ReadError) : String :=
  s!"{e.fault.message} at line {e.position.line} column {e.position.column}"

end StructuredLog.Json
