import StructuredLog.Binary64.Text

/-!
The numbers of a JSON document. Whole numbers of 64 bits are kept exactly; every other number is the
nearest finite binary one. A whole number and a real one are different even when their values agree.
-/

namespace StructuredLog.Json

/-- A whole number of 64 bits, with or without a sign: from minus two to the power of 63 to below
two to the power of 64. -/
structure Integer where
  val : Int
  lower : -9223372036854775808 ≤ val
  upper : val < 18446744073709551616
deriving DecidableEq

structure Real where
  val : Binary64
  finite : val.isFinite = true
deriving DecidableEq

inductive Number where
  | integer (n : Integer)
  | real (x : Real)
deriving DecidableEq

namespace Integer

def ofInt? (i : Int) : Option Integer :=
  if h : -9223372036854775808 ≤ i ∧ i < 18446744073709551616 then some ⟨i, h.1, h.2⟩ else none

def ofUInt64 (n : UInt64) : Integer where
  val := n.toNat
  lower := by have := n.toNat_lt; omega
  upper := by have := n.toNat_lt; omega

def signed? (n : Integer) : Option Int :=
  if n.val < 9223372036854775808 then some n.val else none

def unsigned? (n : Integer) : Option UInt64 :=
  if 0 ≤ n.val then some (UInt64.ofNat n.val.toNat) else none

end Integer

def Real.ofBinary64? (x : Binary64) : Option Real :=
  if h : x.isFinite = true then some ⟨x, h⟩ else none

def intText (i : Int) : List Char :=
  (if i < 0 then ['-'] else []) ++ Nat.toDigits 10 i.natAbs

/-- Real numbers are written out in full from a hundred-thousandth to below ten to the sixteenth,
with a sign and as few digits as it takes in any other exponent. -/
def realLayout : Decimal.Layout := ⟨-5, 15, 1⟩

def realText (x : Binary64) : List Char := x.signedText realLayout Binary64.shortest

namespace Number

def text : Number → List Char
  | .integer n => intText n.val
  | .real x => realText x.val

/-- Equality of numbers: by kind and value, so that both real zeros are equal. -/
def same : Number → Number → Bool
  | .integer m, .integer n => decide (m.val = n.val)
  | .real x, .real y => x.val.sameNumber y.val
  | _, _ => false

def signed? : Number → Option Int
  | .integer n => n.signed?
  | .real _ => none

end Number

end StructuredLog.Json
