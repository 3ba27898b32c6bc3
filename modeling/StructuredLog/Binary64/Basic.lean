import StructuredLog.Decimal.Rounding

/-!
Binary floating-point numbers of 64 bits, kept as their bit patterns: the sign, the fields, the
exact value of a finite one, and the number nearest to a quotient. All arithmetic is on whole
numbers.
-/

namespace StructuredLog

/-- A number of 64 bits. Two numbers are equal when all their bits are. -/
structure Binary64 where
  bits : UInt64
deriving DecidableEq

namespace Binary64

open Decimal

def signUnit : Nat := 9223372036854775808

def exponentUnit : Nat := 4503599627370496

def isNegative (x : Binary64) : Bool := decide (signUnit ≤ x.bits.toNat)

def exponentField (x : Binary64) : Nat := x.bits.toNat / exponentUnit % 2048

def fractionField (x : Binary64) : Nat := x.bits.toNat % exponentUnit

def isFinite (x : Binary64) : Bool := decide (x.exponentField ≠ 2047)

def significand (x : Binary64) : Nat :=
  if x.exponentField = 0 then x.fractionField else x.fractionField + exponentUnit

def exponent (x : Binary64) : Int := (max x.exponentField 1 : Nat) - 1075

def isZero (x : Binary64) : Bool := decide (x.significand = 0)

def magnitude (x : Binary64) : Quotient := Quotient.scale2 ⟨x.significand, 1⟩ x.exponent

/-- Equality as numbers: the two zeros are equal and a number that is none equals nothing. -/
def sameNumber (x y : Binary64) : Bool :=
  if x.isFinite && y.isFinite && x.isZero && y.isZero then true
  else decide (x = y) && (x.isFinite || decide (x.fractionField = 0))

/-- A number with the given sign whose other bits are those of `rest`, at most infinity. -/
def ofMagnitudeBits (negative : Bool) (rest : Nat) : Binary64 :=
  ⟨UInt64.ofNat ((if negative then signUnit else 0) + min rest (2047 * exponentUnit))⟩

def zero (negative : Bool) : Binary64 := ofMagnitudeBits negative 0

def infinity (negative : Bool) : Binary64 := ofMagnitudeBits negative (2047 * exponentUnit)

def notANumber : Binary64 := ⟨0x7FF8000000000000⟩

def leadingBit (q : Quotient) : Int :=
  let guess : Int := q.num.log2 - q.den.log2
  let scaled := q.scale2 (-guess)
  if scaled.den ≤ scaled.num then guess else guess - 1

/-- The number nearest to a quotient. The unit is that of 53 significant bits, or the smallest unit
there is; a significand of 54 bits carries into the exponent field, which is what it means. -/
def ofQuotient (negative : Bool) (q : Quotient) : Binary64 :=
  if q.num = 0 then zero negative
  else
    let unit := max (leadingBit q - 52) (-1074)
    let scaled := q.scale2 (-unit)
    ofMagnitudeBits negative
      ((unit + 1074).toNat * exponentUnit + roundDiv scaled.num scaled.den)

/-- The number nearest to a decimal. A decimal past every finite number, or below half the least
one, is not written out. -/
def ofScaled (negative : Bool) (s : Scaled) : Binary64 :=
  if s.units = 0 then zero negative
  else if 400 < s.leading then infinity negative
  else if s.leading < -400 then zero negative
  else ofQuotient negative s.quotient

def ofInt (i : Int) : Binary64 := ofQuotient (decide (i < 0)) ⟨i.natAbs, 1⟩

/-- The number nearest to the product of two finite ones without a sign. -/
def times (x y : Binary64) : Binary64 := ofQuotient false (x.magnitude.times y.magnitude)

def dividedBy (x y : Binary64) : Binary64 := ofQuotient false (x.magnitude.dividedBy y.magnitude)

def maxPower : Nat := 308

def tenTo (power : Nat) : Binary64 := ofQuotient false ⟨Nat.pow 10 power, 1⟩

def reduced (x : Binary64) : Nat → Binary64
  | 0 => x
  | count + 1 => if x.isZero then x else (x.dividedBy (tenTo maxPower)).reduced count

/-- Units of a power of ten as a number, made in steps that are rounded one by one, so that there
may be a nearer number. Nothing comes of units that are too large. -/
def ofParts (negative : Bool) (units : Nat) (power : Int) : Option Binary64 :=
  let x := ofInt units
  let size := power.natAbs
  let steps := (size - 1) / maxPower
  let made :=
    if power < 0 then some ((x.reduced steps).dividedBy (tenTo (size - steps * maxPower)))
    else if size ≤ maxPower then some (x.times (tenTo size))
    else if x.isZero then some x
    else none
  made.map fun x => ofMagnitudeBits negative x.bits.toNat

end Binary64

end StructuredLog
