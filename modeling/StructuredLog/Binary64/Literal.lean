import StructuredLog.Binary64.Basic
import StructuredLog.Text.Digits

/-!
Numbers as people write them: a sign, digits with or without a point, an exponent, and the words for
what is not finite.
-/

namespace StructuredLog.Binary64

open Decimal
open Text (digitsValue)

def splitSign : List Char → Bool × List Char
  | '-' :: rest => (true, rest)
  | '+' :: rest => (false, rest)
  | text => (false, text)

def wholeNumber? (text : List Char) : Option Int :=
  let (negative, digits) := splitSign text
  if digits.isEmpty || !digits.all Char.isDigit then none
  else some (if negative then -(digitsValue digits : Int) else digitsValue digits)

def exponent? : List Char → Option Int
  | [] => some 0
  | e :: text => if e = 'e' ∨ e = 'E' then wholeNumber? text else none

def decimal? (text : List Char) : Option Scaled :=
  let whole := text.takeWhile Char.isDigit
  let (fraction, rest) := match text.dropWhile Char.isDigit with
    | '.' :: rest => (rest.takeWhile Char.isDigit, rest.dropWhile Char.isDigit)
    | rest => ([], rest)
  if whole.isEmpty && fraction.isEmpty then none
  else (exponent? rest).map fun power =>
    ⟨digitsValue (whole ++ fraction), power - (fraction.length : Nat)⟩

def word? (negative : Bool) (text : List Char) : Option Binary64 :=
  match String.ofList (text.map Char.toLower) with
  | "inf" | "infinity" => some (infinity negative)
  | "nan" => some notANumber
  | _ => none

def ofLiteral? (text : List Char) : Option Binary64 :=
  let (negative, rest) := splitSign text
  match word? negative rest with
  | some x => some x
  | none => (decimal? rest).map (ofScaled negative)

end StructuredLog.Binary64
