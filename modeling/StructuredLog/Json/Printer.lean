import StructuredLog.Json.Value
import StructuredLog.Json.Escape

/-!
Documents as text, on one line or with every item and member on a line of its own.
-/

namespace StructuredLog.Json

/-- How a document is laid out: on one line, or on lines indented by two blanks a level. -/
inductive Style where
  | compact
  | indented (level : Nat)

namespace Style

def deeper : Style → Style
  | .compact => .compact
  | .indented level => .indented (level + 1)

def gap : Style → List Char
  | .compact => []
  | .indented level => '\n' :: List.replicate (2 * level) ' '

def afterKey : Style → List Char
  | .compact => [':']
  | .indented _ => [':', ' ']

end Style

mutual

def Value.text (style : Style) : Value → List Char
  | .null => ['n', 'u', 'l', 'l']
  | .bool true => ['t', 'r', 'u', 'e']
  | .bool false => ['f', 'a', 'l', 's', 'e']
  | .num n => n.text
  | .str s => stringText s
  | .arr items =>
      if items.isEmpty then ['[', ']']
      else '[' :: itemsText style.deeper items ++ style.gap ++ [']']
  | .obj members =>
      if members.isEmpty then ['{', '}']
      else '{' :: membersText style.deeper members ++ style.gap ++ ['}']

def itemsText (style : Style) : List Value → List Char
  | [] => []
  | v :: rest =>
      style.gap ++ v.text style ++
        (if rest.isEmpty then [] else ',' :: itemsText style rest)

def membersText (style : Style) : List (String × Value) → List Char
  | [] => []
  | (key, v) :: rest =>
      style.gap ++ stringText key ++ style.afterKey ++ v.text style ++
        (if rest.isEmpty then [] else ',' :: membersText style rest)

end

namespace Value

def compact (v : Value) : String := String.ofList (v.text .compact)

def pretty (v : Value) : String := String.ofList (v.text (.indented 0))

end Value

end StructuredLog.Json
