import StructuredLog.Text.CaseTable

/-!
Texts in small letters. Every character has its own small form, save the Greek capital sigma, whose
form depends on whether a word ends there.
-/

namespace StructuredLog.Text

def CaseSpan.covers (span : CaseSpan) (code : Nat) : Bool :=
  decide (span.first ≤ code ∧ code ≤ span.last) && (code - span.first) % span.step == 0

/-- The small form of one character. The capital I with a dot above keeps its dot as a mark. -/
def smallLetter (c : Char) : List Char :=
  if c = 'İ' then ['i', '\u0307']
  else match smallLetterSpans.find? (·.covers c.toNat) with
    | some span => [Char.ofNat ((c.toNat : Int) + span.shift).toNat]
    | none => [c]

def meetsCased (text : List Char) : Bool :=
  match text.dropWhile (inSpans caseIgnorableSpans) with
  | c :: _ => inSpans casedSpans c
  | [] => false

/-- The small letters of a text, given the characters before it, nearest first. A capital sigma
becomes the final form when a letter stands before it and none after. -/
def toSmallAfter : List Char → List Char → List Char
  | _, [] => []
  | before, c :: rest =>
      (if c = 'Σ' then [if meetsCased before && !meetsCased rest then 'ς' else 'σ']
        else smallLetter c) ++ toSmallAfter (c :: before) rest

def toSmall (text : List Char) : List Char := toSmallAfter [] text

def lowered (text : String) : String := String.ofList (toSmall text.toList)

end StructuredLog.Text
