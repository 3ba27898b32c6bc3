import StructuredLog.Decimal.Rounding

/-!
The text of a decimal: its digits without trailing zeros, written out in full or with an exponent.
Either way it holds a point or an exponent, so that it is never read as a whole number.
-/

namespace StructuredLog.Decimal

structure Layout where
  lowest : Int
  highest : Int
  exponentDigits : Nat

def stripZeros : List Char → List Char
  | [] => []
  | d :: rest =>
      match stripZeros rest with
      | [] => if d = '0' then [] else [d]
      | kept => d :: kept

def padLeft (fill : Char) (width : Nat) (text : List Char) : List Char :=
  List.replicate (width - text.length) fill ++ text

def inFull (digits : List Char) : Int → List Char
  | .negSucc below => ['0', '.'] ++ List.replicate below '0' ++ digits
  | .ofNat above =>
      match digits.drop (above + 1) with
      | [] => digits ++ List.replicate (above + 1 - digits.length) '0' ++ ['.', '0']
      | fraction => digits.take (above + 1) ++ '.' :: fraction

def withExponent (places : Nat) (digits : List Char) (exponent : Int) : List Char :=
  let mantissa := match digits with
    | [] => ['0']
    | [d] => [d]
    | d :: fraction => d :: '.' :: fraction
  mantissa ++ ['e', if exponent < 0 then '-' else '+'] ++
    padLeft '0' places (Nat.toDigits 10 exponent.natAbs)

namespace Layout

def place (layout : Layout) (digits : List Char) (exponent : Int) : List Char :=
  if layout.lowest ≤ exponent ∧ exponent ≤ layout.highest then inFull digits exponent
  else withExponent layout.exponentDigits digits exponent

def text (layout : Layout) (value : Scaled) : List Char :=
  layout.place (stripZeros (Nat.toDigits 10 value.units)) value.leading

end Layout

end StructuredLog.Decimal
