import StructuredLog.Binary64.Basic

/-!
The shortest decimal that reads back as a given finite number, and of the shortest ones the nearest.
A decimal reads back when it lies between the two points halfway to the neighbouring numbers; these
points themselves count when the significand is even, since a half goes to the even neighbour.
-/

namespace StructuredLog.Binary64

open Decimal

/-- The value of a positive finite number and the two ends of what rounds to it, all as multiples
of a quarter of the unit of its last bit. Below a power of two the numbers lie twice as dense. -/
structure Neighbourhood where
  low : Nat
  value : Nat
  high : Nat
  closed : Bool
  quarter : Quotient

def neighbourhood (x : Binary64) : Neighbourhood where
  low := 4 * x.significand - (if x.fractionField = 0 ∧ 1 < x.exponentField then 1 else 2)
  value := 4 * x.significand
  high := 4 * x.significand + 2
  closed := x.significand % 2 == 0
  quarter := Quotient.scale2 ⟨1, 1⟩ (x.exponent - 2)

/-- The decimal with `count` digits that reads back, if there is one: the neighbour of the value
above or below on that grid, and the nearer where both read back. -/
def Neighbourhood.withDigits (n : Neighbourhood) (leading : Int) (count : Nat) : Option Scaled :=
  let power := leading - (count - 1 : Nat)
  let grid := n.quarter.shift (-power)
  let below := n.value * grid.num / grid.den
  let least := if n.closed then n.low * grid.num else n.low * grid.num + 1
  let most := if n.closed then n.high * grid.num else n.high * grid.num - 1
  let belowReads := decide (least ≤ below * grid.den)
  let aboveReads := decide ((below + 1) * grid.den ≤ most)
  if belowReads && aboveReads then some ⟨roundDiv (n.value * grid.num) grid.den, power⟩
  else if belowReads then some ⟨below, power⟩
  else if aboveReads then some ⟨below + 1, power⟩
  else none

/-- The decimal to print for a positive finite number; 17 digits always read back. -/
def shortest (x : Binary64) : Scaled :=
  let leading := x.magnitude.leading
  match (List.range 17).findSome? fun count => x.neighbourhood.withDigits leading (count + 1) with
  | some decimal => decimal
  | none => x.magnitude.significant 17

end StructuredLog.Binary64
