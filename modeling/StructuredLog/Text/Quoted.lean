import StructuredLog.Text.Digits
import StructuredLog.Text.PrintTable

/-!
Text in double quotes for people to read: what would not show is written as an escape.
-/

namespace StructuredLog.Text

/-- One character between the quotes. Marks that attach to their neighbour are escaped too, since
alone after a quote they would not show as themselves. -/
def quotedChar (c : Char) : List Char :=
  if c = '\x00' then ['\\', '0']
  else if c = '\t' then ['\\', 't']
  else if c = '\r' then ['\\', 'r']
  else if c = '\n' then ['\\', 'n']
  else if c = '\\' then ['\\', '\\']
  else if c = '"' then ['\\', '"']
  else if inSpans attachingSpans c || inSpans unprintableSpans c then
    ['\\', 'u', '{'] ++ hexDigits c.toNat ++ ['}']
  else [c]

/-- The text in double quotes, with escapes for what would not show. -/
def quoted (text : String) : String :=
  String.ofList ('"' :: text.toList.flatMap quotedChar ++ ['"'])

def quotedList (texts : List String) : String :=
  "[" ++ String.intercalate ", " (texts.map quoted) ++ "]"

end StructuredLog.Text
