import StructuredLog.Proofs.Json.ReadBack

/-!
Documents with other strings and keys in the place of their own.
-/

namespace StructuredLog.Json

inductive Value.Spelled (P : String → Prop) : Value → Prop where
  | null : Spelled P .null
  | bool (b : Bool) : Spelled P (.bool b)
  | num (n : Number) : Spelled P (.num n)
  | str {s : String} (own : P s) : Spelled P (.str s)
  | arr {items : List Value} (each : ∀ v ∈ items, Spelled P v) : Spelled P (.arr items)
  | obj {members : List (String × Value)} (keys : ∀ entry ∈ members, P entry.1)
      (each : ∀ entry ∈ members, Spelled P entry.2) : Spelled P (.obj members)

theorem Value.Spelled.imp {P Q : String → Prop} (weaker : ∀ s, P s → Q s) {v : Value}
    (spelled : v.Spelled P) : v.Spelled Q := by
  induction spelled with
  | null => exact .null
  | bool b => exact .bool b
  | num n => exact .num n
  | str own => exact .str (weaker _ own)
  | arr each ih => exact .arr ih
  | obj keys each ih => exact .obj (fun entry member => weaker _ (keys entry member)) ih

mutual

/-- Other strings and keys in the place of a document's own. Keys that become equal stay apart. -/
def Value.respell (f : String → String) : Value → Value
  | .str s => .str (f s)
  | .arr items => .arr (respellItems f items)
  | .obj members => .obj (respellMembers f members)
  | v => v

def respellItems (f : String → String) : List Value → List Value
  | [] => []
  | v :: rest => v.respell f :: respellItems f rest

def respellMembers (f : String → String) : List (String × Value) → List (String × Value)
  | [] => []
  | (key, v) :: rest => (f key, v.respell f) :: respellMembers f rest

end

theorem respellItems_eq (f : String → String) (items : List Value) :
    respellItems f items = items.map (Value.respell f) := by
  induction items with
  | nil => rfl
  | cons v rest ih => rw [respellItems, ih, List.map_cons]

theorem respellMembers_eq (f : String → String) (members : List (String × Value)) :
    respellMembers f members = members.map fun entry => (f entry.1, entry.2.respell f) := by
  induction members with
  | nil => rfl
  | cons entry rest ih => rw [respellMembers, ih, List.map_cons]

theorem respell_whole (f : String → String) {v : Value} (whole : v.Whole) :
    (v.respell f).Whole := by
  induction whole with
  | null => exact .null
  | bool b => exact .bool b
  | integer n => exact .integer n
  | str s => exact .str (f s)
  | arr each ih =>
    rw [Value.respell, respellItems_eq]
    exact .arr (List.forall_mem_map.mpr ih)
  | obj each ih =>
    rw [Value.respell, respellMembers_eq]
    exact .obj (List.forall_mem_map.mpr ih)

theorem respell_depth (f : String → String) {v : Value} {levels : Nat} (deep : v.depth ≤ levels) :
    (v.respell f).depth ≤ levels := by
  induction v using Value.structural generalizing levels with
  | arr items ih =>
    cases levels with
    | zero => cases deep
    | succ levels =>
      have inside := itemsDepth_le.mp (Nat.le_of_succ_le_succ deep)
      rw [Value.respell, respellItems_eq, Value.depth, Nat.succ_le_succ_iff, itemsDepth_le,
        List.forall_mem_map]
      exact fun v member => ih v member (inside v member)
  | obj members ih =>
    cases levels with
    | zero => cases deep
    | succ levels =>
      have inside := membersDepth_le.mp (Nat.le_of_succ_le_succ deep)
      rw [Value.respell, respellMembers_eq, Value.depth, Nat.succ_le_succ_iff, membersDepth_le,
        List.forall_mem_map]
      exact fun entry member => ih entry member (inside entry member)
  | _ => exact deep

end StructuredLog.Json
