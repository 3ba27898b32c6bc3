import StructuredLog.Json.Value

/-!
Merging documents. Objects are merged member by member, arrays as sets, and of two other values the
one that has precedence stays.
-/

namespace StructuredLog.Config

open Json (Value Members)

/-- Adds the items that are not there yet, up to equality of documents. -/
def mergeItems (target : List Value) : List Value → List Value
  | [] => target
  | v :: rest => mergeItems (if target.any (Value.same · v) then target else target ++ [v]) rest

mutual

/-- Merges a value into another; with `overwrite` the merged value has precedence. -/
def mergeValue (overwrite : Bool) (target : Value) : Value → Value
  | .obj source => match target with
    | .obj members => .obj (mergeMembers overwrite members source)
    | other => if overwrite then .obj source else other
  | .arr source => match target with
    | .arr items => .arr (mergeItems items source)
    | other => if overwrite then .arr source else other
  | source => if overwrite then source else target

def mergeMembers (overwrite : Bool) (target : Members) : List (String × Value) → Members
  | [] => target
  | (key, v) :: rest =>
      mergeMembers overwrite
        (Table.put key (match Table.get? key target with
          | some old => mergeValue overwrite old v
          | none => v) target) rest

end

end StructuredLog.Config
