import StructuredLog.Binary64.Text

/-!
Real numbers in log records: twenty significant digits of the exact value.
-/

namespace StructuredLog.Record

/-- Exponents from -4 to 19 are written out in full, the others with two digits or more. -/
def realLayout : Decimal.Layout := ⟨-4, 19, 2⟩

def significantDigits : Nat := 20

def realText (x : Binary64) : List Char :=
  if x.isFinite then x.signedText realLayout (Binary64.rounded significantDigits)
  else ['n', 'u', 'l', 'l']

end StructuredLog.Record
