import StructuredLog.Json.Value
import StructuredLog.Json.Fault
import StructuredLog.Text.Digits

/-!
Reading documents. A reader takes one character after another; it knows which containers are open
and what may come next. `readFrom` is the run over a whole text and `read` starts it.
-/

namespace StructuredLog.Json

/-- A container that is not closed yet, with what has been read of it; the last item
stands first. -/
inductive Frame where
  | list (items : List Value)
  | object (members : Members)
  | member (members : Members) (key : String)

inductive Role where
  | key
  | value

/-- What has been read of an escape. A code may be the first half of a pair, whose second half is
due in an escape of its own. -/
inductive Escape where
  | none
  | backslash
  | hex (leading : Option Nat) (digits : Option Nat) (left : Nat)
  | pairBackslash (leading : Nat)
  | pairLetter (leading : Nat)

/-- What has been read of a number. The digits so far are a whole number of units of a power of
ten. Units have 64 bits: digits for which there is no room are dropped, and before the point each of
them counts for the power. -/
inductive NumberPart where
  | sign
  | leadingZero (negative : Bool)
  | whole (negative : Bool) (units : Nat)
  | long (negative : Bool) (units : Nat) (dropped : Nat)
  | point (negative : Bool) (units : Nat) (power : Int)
  | fraction (negative : Bool) (units : Nat) (power : Int)
  | surplus (negative : Bool) (units : Nat) (power : Int)
  | exponentMark (negative : Bool) (units : Nat) (power : Int)
  | exponentSign (negative : Bool) (units : Nat) (power : Int) (below : Bool)
  | exponent (negative : Bool) (units : Nat) (power : Int) (below : Bool) (size : Nat)
  | vanishing (negative : Bool)

inductive Mode where
  | value
  | listStart
  | listNext
  | listEnd
  | objectStart
  | objectNext
  | colon
  | objectEnd
  | done (v : Value)
  | word (next : Char) (left : List Char) (v : Value)
  | number (part : NumberPart)
  | string (role : Role) (read : List Char) (escape : Escape)

structure State where
  frames : List Frame
  mode : Mode

/-- A fault at the end of the first `bytes` bytes of the character that was looked at. -/
structure Stop where
  fault : Fault
  bytes : Nat

abbrev Step := Except Stop State

def stopAt (fault : Fault) : Step := .error ⟨fault, 1⟩

def maxOpen : Nat := 127

def isSpace (c : Char) : Bool := c == ' ' || c == '\t' || c == '\n' || c == '\r'

/-- A value is complete: it goes into the innermost open container, or is the document. -/
def settle (frames : List Frame) (v : Value) : State :=
  match frames with
  | .list items :: rest => ⟨.list (v :: items) :: rest, .listEnd⟩
  | .member members key :: rest => ⟨.object (Table.put key v members) :: rest, .objectEnd⟩
  | frames => ⟨frames, .done v⟩

def openContainer (frames : List Frame) (frame : Frame) (mode : Mode) : Step :=
  if frames.length < maxOpen then .ok ⟨frame :: frames, mode⟩ else stopAt .tooDeep

def digit? (c : Char) : Option Nat := if c.isDigit then some (c.toNat - '0'.toNat) else none

def beginValue (frames : List Frame) (c : Char) : Step :=
  match c with
  | 'n' => .ok ⟨frames, .word 'u' ['l', 'l'] .null⟩
  | 't' => .ok ⟨frames, .word 'r' ['u', 'e'] (.bool true)⟩
  | 'f' => .ok ⟨frames, .word 'a' ['l', 's', 'e'] (.bool false)⟩
  | '-' => .ok ⟨frames, .number .sign⟩
  | '"' => .ok ⟨frames, .string .value [] .none⟩
  | '[' => openContainer frames (.list []) .listStart
  | '{' => openContainer frames (.object []) .objectStart
  | '0' => .ok ⟨frames, .number (.leadingZero false)⟩
  | c => match digit? c with
    | some d => .ok ⟨frames, .number (.whole false d)⟩
    | none => stopAt .noValue

def closeList : List Frame → Step
  | .list items :: rest => .ok (settle rest (.arr items.reverse))
  | _ => stopAt .noListEnd

def closeObject : List Frame → Step
  | .object members :: rest => .ok (settle rest (.obj members))
  | _ => stopAt .noObjectEnd

def between (frames : List Frame) (mode : Mode) (c : Char) : Step :=
  match mode with
  | .listStart => if c = ']' then closeList frames else beginValue frames c
  | .listNext => if c = ']' then stopAt .trailingComma else beginValue frames c
  | .listEnd =>
      if c = ',' then .ok ⟨frames, .listNext⟩
      else if c = ']' then closeList frames
      else stopAt .noListEnd
  | .objectStart =>
      if c = '}' then closeObject frames
      else if c = '"' then .ok ⟨frames, .string .key [] .none⟩
      else stopAt .keyNotString
  | .objectNext =>
      if c = '"' then .ok ⟨frames, .string .key [] .none⟩
      else if c = '}' then stopAt .trailingComma
      else stopAt .keyNotString
  | .colon => if c = ':' then .ok ⟨frames, .value⟩ else stopAt .noColon
  | .objectEnd =>
      if c = ',' then .ok ⟨frames, .objectNext⟩
      else if c = '}' then closeObject frames
      else stopAt .noObjectEnd
  | .done _ => stopAt .trailingCharacters
  | _ => beginValue frames c

/-- The value of a whole number. One that is too large for its kind becomes a real number, and so
does zero with a sign, which whole numbers cannot show. -/
def wholeValue (negative : Bool) (units : Nat) : Except Fault Value :=
  let i : Int := if negative then -units else units
  match if negative && units == 0 then none else Integer.ofInt? i with
  | some n => .ok (.num (.integer n))
  | none =>
      match Real.ofBinary64? (Binary64.ofScaled negative ⟨units, 0⟩) with
      | some x => .ok (.num (.real x))
      | none => .error .numberOutOfRange

def realValue (negative : Bool) (units : Nat) (power : Int) : Except Fault Value :=
  match (Binary64.ofParts negative units power).bind Real.ofBinary64? with
  | some x => .ok (.num (.real x))
  | none => .error .numberOutOfRange

/-- The value of a number that ends here; `endInValue` when it cannot end here. -/
def NumberPart.value : NumberPart → Except Fault Value
  | .sign => .error .endInValue
  | .leadingZero negative => wholeValue negative 0
  | .whole negative units => wholeValue negative units
  | .long negative units dropped => realValue negative units dropped
  | .point _ _ _ => .error .endInValue
  | .fraction negative units power => realValue negative units power
  | .surplus negative units power => realValue negative units power
  | .exponentMark _ _ _ => .error .endInValue
  | .exponentSign _ _ _ _ => .error .endInValue
  | .exponent negative units power below size =>
      realValue negative units (power + if below then -(size : Int) else size)
  | .vanishing negative => realValue negative 0 0

/-- The largest size of an exponent that is read; a larger one makes the number zero or
too large. -/
def maxExponent : Nat := 2147483647

def maxUnits : Nat := 18446744073709551615

def afterPoint (negative : Bool) (units : Nat) (power : Int) (d : Nat) : NumberPart :=
  if units * 10 + d ≤ maxUnits then .fraction negative (units * 10 + d) (power - 1)
  else .surplus negative units power

/-- The next part of a number, nothing when the number ends before the character. -/
def NumberPart.next (part : NumberPart) (c : Char) : Except Fault (Option NumberPart) :=
  let isMark := c == 'e' || c == 'E'
  let afterWhole (negative : Bool) (units : Nat) (power : Int) : Option NumberPart :=
    if c = '.' then some (.point negative units power)
    else if isMark then some (.exponentMark negative units power)
    else none
  let afterFraction (negative : Bool) (units : Nat) (power : Int) : Option NumberPart :=
    if isMark then some (.exponentMark negative units power) else none
  match part, digit? c with
  | .sign, some d => .ok (some (if d = 0 then .leadingZero true else .whole true d))
  | .sign, none => .error .badNumber
  | .leadingZero _, some _ => .error .badNumber
  | .leadingZero negative, none => .ok (afterWhole negative 0 0)
  | .whole negative units, some d =>
      .ok (some (if units * 10 + d ≤ maxUnits then .whole negative (units * 10 + d)
        else .long negative units 1))
  | .whole negative units, none => .ok (afterWhole negative units 0)
  | .long negative units dropped, some _ => .ok (some (.long negative units (dropped + 1)))
  | .long negative units dropped, none => .ok (afterWhole negative units dropped)
  | .point negative units power, some d => .ok (some (afterPoint negative units power d))
  | .point _ _ _, none => .error .badNumber
  | .fraction negative units power, some d => .ok (some (afterPoint negative units power d))
  | .fraction negative units power, none => .ok (afterFraction negative units power)
  | .surplus negative units power, some _ => .ok (some (.surplus negative units power))
  | .surplus negative units power, none => .ok (afterFraction negative units power)
  | .exponentMark negative units power, some d =>
      .ok (some (.exponent negative units power false d))
  | .exponentMark negative units power, none =>
      if c = '+' then .ok (some (.exponentSign negative units power false))
      else if c = '-' then .ok (some (.exponentSign negative units power true))
      else .error .badNumber
  | .exponentSign negative units power below, some d =>
      .ok (some (.exponent negative units power below d))
  | .exponentSign _ _ _ _, none => .error .badNumber
  | .exponent negative units power below size, some d =>
      if size * 10 + d ≤ maxExponent then
        .ok (some (.exponent negative units power below (size * 10 + d)))
      else if below || units == 0 then .ok (some (.vanishing negative))
      else .error .numberOutOfRange
  | .exponent .., none => .ok none
  | .vanishing negative, some _ => .ok (some (.vanishing negative))
  | .vanishing _, none => .ok none

def inNumber (frames : List Frame) (part : NumberPart) (c : Char) : Step :=
  match part.next c with
  | .error fault => stopAt fault
  | .ok (some part) => .ok ⟨frames, .number part⟩
  | .ok none =>
      match part.value with
      | .error fault => .error ⟨fault, 0⟩
      | .ok v =>
          let state := settle frames v
          if isSpace c then .ok state else between state.frames state.mode c

def endString (frames : List Frame) (role : Role) (s : String) : State :=
  match role, frames with
  | .key, .object members :: rest => ⟨.member members s :: rest, .colon⟩
  | _, frames => settle frames (.str s)

/-- The code of an escape is complete: a character, a half of a pair, or a half that
stands alone. -/
def endEscape (read : List Char) (leading : Option Nat) (code : Nat) :
    Except Fault (List Char × Escape) :=
  let trailing := decide (0xDC00 ≤ code ∧ code ≤ 0xDFFF)
  match leading with
  | some high =>
      if trailing then
        .ok (Char.ofNat (0x10000 + (high - 0xD800) * 0x400 + (code - 0xDC00)) :: read, .none)
      else .error .loneSurrogate
  | none =>
      if trailing then .error .loneSurrogate
      else if 0xD800 ≤ code ∧ code ≤ 0xDBFF then .ok (read, .pairBackslash code)
      else .ok (Char.ofNat code :: read, .none)

def escapeLetter? (c : Char) : Option Char :=
  match c with
  | '"' => some '"'
  | '\\' => some '\\'
  | '/' => some '/'
  | 'b' => some '\x08'
  | 'f' => some '\x0c'
  | 'n' => some '\n'
  | 'r' => some '\r'
  | 't' => some '\t'
  | _ => none

/-- A character of a string. Four bytes are taken for the digits of a code before they
are judged. -/
def inString (frames : List Frame) (role : Role) (read : List Char) (escape : Escape) (c : Char) :
    Step :=
  let stay (read : List Char) (escape : Escape) : Step := .ok ⟨frames, .string role read escape⟩
  match escape with
  | .none =>
      if c = '"' then .ok (endString frames role (String.ofList read.reverse))
      else if c = '\\' then stay read .backslash
      else if c.toNat < 0x20 then stopAt .controlCharacter
      else stay (c :: read) .none
  | .backslash =>
      if c = 'u' then stay read (.hex none (some 0) 4)
      else match escapeLetter? c with
        | some letter => stay (letter :: read) .none
        | none => stopAt .badEscape
  | .hex leading digits left =>
      let value := digits.bind fun high => (Text.hexValue? c).map (high * 16 + ·)
      if c.utf8Size < left then stay read (.hex leading value (left - c.utf8Size))
      else match value with
        | none => .error ⟨.badEscape, left⟩
        | some code => match endEscape read leading code with
          | .error fault => stopAt fault
          | .ok (read, escape) => stay read escape
  | .pairBackslash leading =>
      if c = '\\' then stay read (.pairLetter leading) else stopAt .endOfHexEscape
  | .pairLetter leading =>
      if c = 'u' then stay read (.hex (some leading) (some 0) 4) else stopAt .endOfHexEscape

def State.step (state : State) (c : Char) : Step :=
  match state.mode with
  | .word next left v =>
      if c = next then
        match left with
        | [] => .ok (settle state.frames v)
        | next :: left => .ok ⟨state.frames, .word next left v⟩
      else stopAt .badWord
  | .number part => inNumber state.frames part c
  | .string role read escape => inString state.frames role read escape c
  | mode => if isSpace c then .ok state else between state.frames mode c

def State.finish (state : State) : Except Fault Value :=
  match state.mode with
  | .value | .listNext | .objectNext | .word .. => .error .endInValue
  | .listStart | .listEnd => .error .endInList
  | .objectStart | .colon | .objectEnd => .error .endInObject
  | .string _ _ _ => .error .endInString
  | .done v => .ok v
  | .number part =>
      match part.value with
      | .error fault => .error fault
      | .ok v => match (settle state.frames v).mode with
        | .done v => .ok v
        | .listEnd => .error .endInList
        | _ => .error .endInObject

def readFrom (state : State) (position : Position) : List Char → Except ReadError Value
  | [] => match state.finish with
    | .ok v => .ok v
    | .error fault => .error ⟨fault, position⟩
  | c :: rest => match state.step c with
    | .error stop => .error ⟨stop.fault, position.after stop.bytes c⟩
    | .ok state => readFrom state (position.next c) rest

def read (text : List Char) : Except ReadError Value :=
  readFrom ⟨[], .value⟩ .start text

end StructuredLog.Json
