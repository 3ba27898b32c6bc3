import StructuredLog.Binary64.Shortest
import StructuredLog.Decimal.Layout

/-!
Finite numbers as text, with the shortest digits or with a fixed number of significant ones.
-/

namespace StructuredLog.Binary64

open Decimal

def signedText (layout : Layout) (digits : Binary64 → Scaled) (x : Binary64) : List Char :=
  (if x.isNegative then ['-'] else []) ++
    if x.isZero then ['0', '.', '0'] else layout.text (digits x)

def rounded (count : Nat) (x : Binary64) : Scaled := x.magnitude.significant count

def hexText (x : Binary64) : List Char := padLeft '0' 16 (Nat.toDigits 16 x.bits.toNat)

end StructuredLog.Binary64
