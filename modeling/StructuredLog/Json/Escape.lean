/-!
Strings as JSON writes them: quotes, backslashes and control characters are escaped, everything else
stands for itself.
-/

namespace StructuredLog.Json

def hexDigit (n : Nat) : Char := Nat.digitChar n

/-- One character between the quotes. Five controls have an escape of one letter, the others are
given by their code. -/
def escapeChar (c : Char) : List Char :=
  if c = '"' then ['\\', '"']
  else if c = '\\' then ['\\', '\\']
  else if c = '\x08' then ['\\', 'b']
  else if c = '\x0c' then ['\\', 'f']
  else if c = '\n' then ['\\', 'n']
  else if c = '\r' then ['\\', 'r']
  else if c = '\t' then ['\\', 't']
  else if c.toNat < 0x20 then
    ['\\', 'u', '0', '0', hexDigit (c.toNat / 16), hexDigit (c.toNat % 16)]
  else [c]

def escape (text : List Char) : List Char := text.flatMap escapeChar

def stringText (s : String) : List Char := '"' :: escape s.toList ++ ['"']

def escaped (s : String) : String := String.ofList (escape s.toList)

end StructuredLog.Json
