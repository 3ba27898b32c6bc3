import StructuredLog.Proofs.Config.Levels
import StructuredLog.Proofs.Json.Structure

/-!
What expansion leaves alone: a document in which no key is a template stays as it is.
-/

namespace StructuredLog.Config

open Json (Value Members)

abbrev Untemplated (shape : Shape) : Value → Prop :=
  Value.Keyed fun keys => ∀ key ∈ keys, shape.group? key = none

theorem bind_ok {ε α β : Type} {first : Except ε α} {next : α → Except ε β} {result : β}
    (bound : first >>= next = .ok result) : ∃ a, first = .ok a ∧ next a = .ok result := by
  cases first with
  | error error => cases bound
  | ok a => exact ⟨a, rfl, bound⟩

theorem mapM_same {f : Value → Attempt Value} {items : List Value}
    (each : ∀ v ∈ items, f v = .ok v) : items.mapM f = .ok items := by
  induction items with
  | nil => rfl
  | cons v rest ih =>
    rw [List.forall_mem_cons] at each
    rw [List.mapM_cons, each.1, ih each.2]
    rfl

theorem changeMember_same {change : Value → Attempt Value} {key : String} {members : Members}
    (each : ∀ entry ∈ members, change entry.2 = .ok entry.2) :
    changeMember change key members = .ok members := by
  unfold changeMember
  cases found : Table.get? key members with
  | none => rfl
  | some v =>
    have same : change v = .ok v := each (key, v) (Table.mem_of_get? found)
    simp only [same, Except.map, Table.put_get? found]

theorem expandKeys_same (mode : Substitution) (shape : Shape)
    {expand : Value → Attempt Value} {keys : List String} {members : Members}
    (untemplated : ∀ key ∈ keys, shape.group? key = none)
    (each : ∀ entry ∈ members, expand entry.2 = .ok entry.2) :
    expandKeys mode shape expand keys members = .ok members := by
  induction keys with
  | nil => rfl
  | cons key rest ih =>
    rw [List.forall_mem_cons] at untemplated
    rw [expandKeys, untemplated.1]
    simp only [changeMember_same each]
    exact ih untemplated.2

theorem expandWithin_same (mode : Substitution) (shape : Shape) {v : Value} {levels : Nat}
    (untemplated : Untemplated shape v) (deep : v.depth ≤ levels) :
    expandWithin mode shape levels v = .ok v := by
  induction v using Value.structural generalizing levels with
  | arr items ih =>
    cases levels with
    | zero => cases deep
    | succ levels =>
      have inside := Json.itemsDepth_le.mp (Nat.le_of_succ_le_succ deep)
      have each : ∀ v ∈ items, expandWithin mode shape levels v = .ok v := fun v member =>
        ih v member (untemplated.items v member) (inside v member)
      rw [expandWithin, mapM_same each]
      rfl
  | obj members ih =>
    cases levels with
    | zero => cases deep
    | succ levels =>
      have inside := Json.membersDepth_le.mp (Nat.le_of_succ_le_succ deep)
      have each : ∀ entry ∈ members, expandWithin mode shape levels entry.2 = .ok entry.2 :=
        fun entry member =>
          ih entry member (untemplated.members entry member) (inside entry member)
      rw [expandWithin, expandKeys_same mode shape untemplated.keys each]
      rfl
  | _ => cases levels <;> rfl

theorem expandShape_same (mode : Substitution) (shape : Shape) {v : Value}
    (untemplated : Untemplated shape v) : Expands mode shape v v :=
  Expands.of_within (expandWithin_same mode shape untemplated (Nat.le_refl _))

theorem expandAll_same (mode : Substitution) {v : Value}
    (untemplated : ∀ shape, Untemplated shape v) :
    (expandAll mode v).final = some (.ok v) := by
  rw [expandAll, Eventual.final_bind, expandShape_same mode .object (untemplated .object)]
  exact expandShape_same mode .array (untemplated .array)

end StructuredLog.Config
