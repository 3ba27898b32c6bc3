/-!
Positive quotients in decimal: their leading exponent, and their rounding to a number of significant
digits. Halves go to the even neighbour.
-/

namespace StructuredLog.Decimal

/-- The whole number nearest to `num / den`; of two equally near ones, the even one. -/
def roundDiv (num den : Nat) : Nat :=
  let quotient := num / den
  let twice := 2 * (num % den)
  if twice < den then quotient
  else if den < twice then quotient + 1
  else quotient + quotient % 2

structure Quotient where
  num : Nat
  den : Nat

namespace Quotient

def times (p q : Quotient) : Quotient := ⟨p.num * q.num, p.den * q.den⟩

def dividedBy (p q : Quotient) : Quotient := ⟨p.num * q.den, p.den * q.num⟩

def shift (q : Quotient) : Int → Quotient
  | .ofNat k => ⟨q.num * Nat.pow 10 k, q.den⟩
  | .negSucc k => ⟨q.num, q.den * Nat.pow 10 (k + 1)⟩

def scale2 (q : Quotient) : Int → Quotient
  | .ofNat k => ⟨q.num * Nat.pow 2 k, q.den⟩
  | .negSucc k => ⟨q.num, q.den * Nat.pow 2 (k + 1)⟩

end Quotient

def digitCount (n : Nat) : Nat := (Nat.toDigits 10 n).length

/-- The exponent of the leading digit of a positive quotient: ten to it is the largest power of ten
that is not above the quotient. The digit counts leave two candidates. -/
def Quotient.leading (q : Quotient) : Int :=
  let guess : Int := digitCount q.num - digitCount q.den
  let scaled := q.shift (-guess)
  if scaled.den ≤ scaled.num then guess else guess - 1

structure Scaled where
  units : Nat
  power : Int

namespace Scaled

def leading (s : Scaled) : Int := s.power + (digitCount s.units - 1 : Nat)

def quotient (s : Scaled) : Quotient := Quotient.shift ⟨s.units, 1⟩ s.power

end Scaled

def Quotient.lastPlace (q : Quotient) (count : Nat) : Int := q.leading - (count - 1 : Nat)

def Quotient.significant (q : Quotient) (count : Nat) : Scaled :=
  let power := q.lastPlace count
  let scaled := q.shift (-power)
  ⟨roundDiv scaled.num scaled.den, power⟩

end StructuredLog.Decimal
