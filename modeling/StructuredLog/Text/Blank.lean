import StructuredLog.Text.Span

/-!
Blank characters, and texts without the blanks around them.
-/

namespace StructuredLog.Text

/-- The characters with the Unicode property White_Space. -/
def blankSpans : List (Nat × Nat) :=
  [(0x9, 0xD), (0x20, 0x20), (0x85, 0x85), (0xA0, 0xA0), (0x1680, 0x1680), (0x2000, 0x200A),
   (0x2028, 0x2029), (0x202F, 0x202F), (0x205F, 0x205F), (0x3000, 0x3000)]

def isBlank (c : Char) : Bool := inSpans blankSpans c

def trimLeft (text : List Char) : List Char := text.dropWhile isBlank

def trim (text : List Char) : List Char :=
  (trimLeft (trimLeft text).reverse).reverse

end StructuredLog.Text
