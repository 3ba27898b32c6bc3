/-!
Parts of texts: what stands at the front, what occurs anywhere, replacing every occurrence, and the
pieces and lines of a text.
-/

namespace StructuredLog.Text

/-- What follows `part` in a text that begins with it. -/
def after? : List Char → List Char → Option (List Char)
  | [], text => some text
  | _ :: _, [] => none
  | p :: part, c :: text => if p = c then after? part text else none

def occurs (part : List Char) : List Char → Bool
  | [] => part.isEmpty
  | c :: rest => (after? part (c :: rest)).isSome || occurs part rest

/-- Replaces every occurrence of a part, from the left and without overlap, after passing over the
first `skip` characters. -/
def replaceFrom (part replacement : List Char) : Nat → List Char → List Char
  | _, [] => []
  | skip + 1, _ :: rest => replaceFrom part replacement skip rest
  | 0, c :: rest =>
      if (after? part (c :: rest)).isSome then
        replacement ++ replaceFrom part replacement (part.length - 1) rest
      else c :: replaceFrom part replacement 0 rest

def replaceAll (part replacement text : List Char) : List Char :=
  replaceFrom part replacement 0 text

/-- The text before the first occurrence of a part, or all of it. -/
def before (part : List Char) : List Char → List Char
  | [] => []
  | c :: rest => if (after? part (c :: rest)).isSome then [] else c :: before part rest

/-- The pieces of a text between separators; there is always one piece more than there are
separators. -/
def splitOn (separator : Char) : List Char → List (List Char)
  | [] => [[]]
  | c :: rest =>
      if c = separator then [] :: splitOn separator rest
      else match splitOn separator rest with
        | [] => [[c]]
        | piece :: pieces => (c :: piece) :: pieces

/-- The lines of a text, or of its bytes, each with the feed that ends it. -/
def lines {α : Type} [DecidableEq α] (feed : α) : List α → List (List α)
  | [] => []
  | c :: rest =>
      if c = feed then [c] :: lines feed rest
      else match lines feed rest with
        | [] => [[c]]
        | line :: later => (c :: line) :: later

end StructuredLog.Text
