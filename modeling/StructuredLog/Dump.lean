import StructuredLog.Text.Digits
import StructuredLog.Text.Utf8
import StructuredLog.Decimal.Layout

/-!
Bytes in hexadecimal: as one run of digits, and as lines of sixteen with their offset and their
printable characters.
-/

namespace StructuredLog.Dump

open Text (Bytes)

def upperDigit (n : Nat) : Char := (Nat.digitChar n).toUpper

def cell (b : UInt8) : List Char := [upperDigit (b.toNat / 16), upperDigit (b.toNat % 16), ' ']

def noCell : List Char := [' ', ' ', ' ']

def shownByte (b : UInt8) : Char :=
  if 0x20 ≤ b ∧ b ≤ 0x7E then Char.ofNat b.toNat else '.'

def bytesPerLine : Nat := 16

def line (offset : Nat) (data : Bytes) : List Char :=
  Decimal.padLeft '0' 4 ((Text.hexDigits offset).map Char.toUpper) ++ [':', ' '] ++
    data.flatMap cell ++ (List.replicate (bytesPerLine - data.length) noCell).flatten ++
    data.map shownByte

/-- The bytes in lines; `count` is how many lines there are at most. -/
def linesFrom : Nat → Nat → Bytes → List (List Char)
  | _, _, [] => []
  | 0, _, _ => []
  | count + 1, offset, data =>
      line offset (data.take bytesPerLine) ::
        linesFrom count (offset + bytesPerLine) (data.drop bytesPerLine)

def lines (data : Bytes) : List (List Char) := linesFrom data.length 0 data

def hex (data : Bytes) : List Char :=
  data.flatMap fun b => [Nat.digitChar (b.toNat / 16), Nat.digitChar (b.toNat % 16)]

/-- The bytes that a run of digits stands for, two for each byte. -/
def ofHex? : List Char → Option Bytes
  | [] => some []
  | [_] => none
  | a :: b :: rest =>
      match Text.hexValue? a, Text.hexValue? b, ofHex? rest with
      | some high, some low, some data => some (UInt8.ofNat (16 * high + low) :: data)
      | _, _, _ => none

end StructuredLog.Dump
