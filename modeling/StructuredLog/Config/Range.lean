import Std.Data.HashSet
import StructuredLog.Error

/-!
Ranges of whole numbers: single numbers, intervals written as pairs, and lists of these.
-/

namespace StructuredLog.Config

open Json (Value)

def countFrom (first : Int) : Nat → List Int
  | 0 => []
  | count + 1 => first :: countFrom (first + 1) count

def bounds? : List Value → Option (Int × Int)
  | [a, b] =>
      match a.signed?, b.signed? with
      | some first, some last => if first ≤ last then some (first, last) else none
      | _, _ => none
  | _ => none

mutual

def itemNumbers : Value → Except Error (List Int)
  | .num n => match n.signed? with
    | some i => .ok [i]
    | none => .error (.badRange (.notInteger n))
  | .arr items => match bounds? items with
    | some (first, last) => .ok (countFrom first (last - first + 1).toNat)
    | none => listNumbers items
  | v => .error (.badRange (.badItem v.kind))

def listNumbers : List Value → Except Error (List Int)
  | [] => .ok []
  | v :: rest => do
      let first ← itemNumbers v
      let later ← listNumbers rest
      .ok (first ++ later)

end

/-- The numbers of a list that were not seen before, each where it comes first. -/
def firstOnes (seen : Std.HashSet Int) : List Int → List Int
  | [] => []
  | i :: rest =>
      if seen.contains i then firstOnes seen rest else i :: firstOnes (seen.insert i) rest

def rangeSet (items : List Value) : Except Error (List Int) :=
  (listNumbers items).map (firstOnes ∅)

def rangeOf : Value → Except Error (List Int)
  | .arr items => rangeSet items
  | .num n => rangeSet [.num n]
  | v => .error (.badRange (.badRange v.kind))

end StructuredLog.Config
