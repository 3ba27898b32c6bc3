/-!
Texts as bytes and bytes as texts, in UTF-8. Bytes that are no UTF-8 are either refused or replaced,
one replacement character for every longest run that could still have begun a character.
-/

namespace StructuredLog.Text

abbrev Bytes := List UInt8

def encode (text : List Char) : Bytes := text.flatMap String.utf8EncodeChar

def bytes (text : String) : Bytes := encode text.toList

/-- A character that has begun: how many bytes are missing, what the next one may be, and the value
read so far. -/
structure Pending where
  missing : Nat
  low : UInt8
  high : UInt8
  value : Nat

/-- What a byte does between two characters. -/
def beginChar (b : UInt8) : List (Option Char) × Option Pending :=
  if b ≤ 0x7F then ([some (Char.ofNat b.toNat)], none)
  else if 0xC2 ≤ b && b ≤ 0xDF then ([], some ⟨1, 0x80, 0xBF, b.toNat - 0xC0⟩)
  else if b = 0xE0 then ([], some ⟨2, 0xA0, 0xBF, 0⟩)
  else if b = 0xED then ([], some ⟨2, 0x80, 0x9F, 0xD⟩)
  else if 0xE1 ≤ b && b ≤ 0xEF then ([], some ⟨2, 0x80, 0xBF, b.toNat - 0xE0⟩)
  else if b = 0xF0 then ([], some ⟨3, 0x90, 0xBF, 0⟩)
  else if b = 0xF4 then ([], some ⟨3, 0x80, 0x8F, 4⟩)
  else if 0xF1 ≤ b && b ≤ 0xF3 then ([], some ⟨3, 0x80, 0xBF, b.toNat - 0xF0⟩)
  else ([none], none)

/-- Reads bytes as UTF-8; every part that is none is one `none`. -/
def scan : Option Pending → Bytes → List (Option Char)
  | none, [] => []
  | some _, [] => [none]
  | none, b :: rest => (beginChar b).1 ++ scan (beginChar b).2 rest
  | some p, b :: rest =>
      if p.low ≤ b && b ≤ p.high then
        let value := p.value * 64 + (b.toNat - 0x80)
        match p.missing with
        | 0 | 1 => some (Char.ofNat value) :: scan none rest
        | missing + 1 => scan (some ⟨missing, 0x80, 0xBF, value⟩) rest
      else none :: ((beginChar b).1 ++ scan (beginChar b).2 rest)

def decodeLossy (data : Bytes) : List Char :=
  (scan none data).map (·.getD '\uFFFD')

def decode? (data : Bytes) : Option (List Char) :=
  (scan none data).mapM id

def shown (data : Bytes) : String := String.ofList (decodeLossy data)

/-- The longest beginning of whole characters that takes up at most `room` bytes. -/
def clip : Nat → List Char → List Char
  | _, [] => []
  | room, c :: rest =>
      if c.utf8Size ≤ room then c :: clip (room - c.utf8Size) rest else []

end StructuredLog.Text
