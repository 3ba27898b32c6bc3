import StructuredLog.Record.Field

/-!
Fields by format: a percent sign, flags, width and length in any order, and a letter that says what
kind of argument is meant.
-/

namespace StructuredLog.Record

inductive Conversion where
  | signed (long : Bool)
  | unsigned (long : Bool)
  | float (longDouble : Bool)
  | string (wide : Bool)
  | pointer
  | json
  | percent
  | char
deriving DecidableEq

namespace Conversion

/-- The characters between the percent sign and the letter that decide nothing. -/
def isModifier (c : Char) : Bool :=
  c.isDigit || ['-', '+', ' ', '#', '.', '*', '\x27', 'h', 'q', 'z', 't'].contains c

/-- What a final letter means, given whether the lengths `l` and `L` were seen. -/
def ofLetter? (long longDouble : Bool) (c : Char) : Option Conversion :=
  if c = '%' then some .percent
  else if ['d', 'i'].contains c then some (.signed long)
  else if ['o', 'u', 'x', 'X'].contains c then some (.unsigned long)
  else if ['e', 'E', 'f', 'F', 'g', 'G', 'a', 'A'].contains c then some (.float longDouble)
  else if c = 's' then some (.string long)
  else if c = 'p' then some .pointer
  else if c = 'j' then some .json
  else if c = 'c' then some .char
  else none

def scan (long longDouble : Bool) : List Char → Option Conversion
  | [] => none
  | c :: rest =>
      if isModifier c then scan long longDouble rest
      else if c = 'l' then scan true longDouble rest
      else if c = 'L' then scan long true rest
      else ofLetter? long longDouble c

/-- The first conversion of a format, and only that. -/
def parse (format : String) : Option Conversion :=
  match format.toList.dropWhile (· != '%') with
  | [] => none
  | _ :: rest => scan false false rest

end Conversion

inductive Argument where
  | int (i : Int)
  | float (x : Binary64)
  | str (s : String)
  | pointer (address : UInt64)
  | json (v : Json.Value)
  | char (c : Char)

def signed32 (i : Int) : Int := i.bmod 4294967296

def unsigned32 (i : Int) : Int := i % 4294967296

/-- The field that a conversion makes of an argument: nothing when they do not fit, no field for a
percent sign or a character. -/
def Conversion.convert? : Conversion → Argument → Option (Option FieldValue)
  | .percent, _ | .char, _ => some none
  | .signed long, .int i => some (some (.int (if long then i else signed32 i)))
  | .unsigned long, .int i => some (some (.int (if long then i else unsigned32 i)))
  | .float _, .float x => some (some (.real x))
  | .float _, .int i => some (some (.real (Binary64.ofInt i)))
  | .string _, .str s => some (some (.str s))
  | .pointer, .pointer address =>
      some (some (.str ("0x" ++ String.ofList (Text.hexDigits address.toNat))))
  | .json, .json v => some (some (.str (singleQuoted v)))
  | _, _ => none

/-- Adds the field that a format makes of an argument at the end. The fields afterwards are given
whether or not that fails. -/
def Fields.pushFormatted (fields : Fields) (key format : String) (argument : Argument) :
    Except Error Unit × Fields :=
  match (Conversion.parse format).bind (·.convert? argument) with
  | some (some value) => (.ok (), fields ++ [(key, value)])
  | some none => (.ok (), fields)
  | none => (.error (.formatMismatch key format), fields)

end StructuredLog.Record
