import StructuredLog.Json.Value

/-!
Documents by structure: what holds of all items and members holds of every document. Also what is
said of the keys of all objects in a document, and how deep a document is.
-/

namespace StructuredLog.Json

@[elab_as_elim]
theorem Value.structural {motive : Value → Prop} (null : motive .null)
    (bool : ∀ b, motive (.bool b)) (num : ∀ n, motive (.num n)) (str : ∀ s, motive (.str s))
    (arr : ∀ items, (∀ v ∈ items, motive v) → motive (.arr items))
    (obj : ∀ members, (∀ entry ∈ members, motive entry.2) → motive (.obj members)) (v : Value) :
    motive v :=
  Value.rec (motive_1 := motive) (motive_2 := fun items => ∀ v ∈ items, motive v)
    (motive_3 := fun members => ∀ entry ∈ members, motive entry.2)
    (motive_4 := fun entry => motive entry.2)
    null bool num str arr obj
    (fun _ member => by cases member)
    (fun _ _ first others => List.forall_mem_cons.mpr ⟨first, others⟩)
    (fun _ member => by cases member)
    (fun _ _ first others => List.forall_mem_cons.mpr ⟨first, others⟩)
    (fun _ _ held => held) v

def Value.isScalar : Value → Bool
  | .arr _ | .obj _ => false
  | _ => true

inductive Value.Keyed (P : List String → Prop) : Value → Prop where
  | scalar {v : Value} (scalar : v.isScalar = true) : Keyed P v
  | arr {items : List Value} (each : ∀ v ∈ items, Keyed P v) : Keyed P (.arr items)
  | obj {members : Members} (keys : P (Table.keys members))
      (each : ∀ entry ∈ members, Keyed P entry.2) : Keyed P (.obj members)

abbrev Value.Distinct : Value → Prop := Value.Keyed List.Nodup

theorem Value.Keyed.items {P : List String → Prop} {items : List Value}
    (keyed : (Value.arr items).Keyed P) : ∀ v ∈ items, v.Keyed P := by
  cases keyed with
  | scalar scalar => cases scalar
  | arr each => exact each

theorem Value.Keyed.keys {P : List String → Prop} {members : Members}
    (keyed : (Value.obj members).Keyed P) : P (Table.keys members) := by
  cases keyed with
  | scalar scalar => cases scalar
  | obj keys each => exact keys

theorem Value.Keyed.members {P : List String → Prop} {members : Members}
    (keyed : (Value.obj members).Keyed P) : ∀ entry ∈ members, entry.2.Keyed P := by
  cases keyed with
  | scalar scalar => cases scalar
  | obj keys each => exact each

section

variable (P : List String → Prop) [DecidablePred P]

mutual

def Value.isKeyed : Value → Bool
  | .arr items => itemsKeyed items
  | .obj members => decide (P (Table.keys members)) && membersKeyed members
  | _ => true

def itemsKeyed : List Value → Bool
  | [] => true
  | v :: rest => v.isKeyed && itemsKeyed rest

def membersKeyed : List (String × Value) → Bool
  | [] => true
  | (_, v) :: rest => v.isKeyed && membersKeyed rest

end

variable {P}

theorem itemsKeyed_iff {items : List Value} :
    itemsKeyed P items = true ↔ ∀ v ∈ items, v.isKeyed P = true := by
  induction items with
  | nil => simp [itemsKeyed]
  | cons v rest ih => rw [itemsKeyed, Bool.and_eq_true, ih, List.forall_mem_cons]

theorem membersKeyed_iff {members : Members} :
    membersKeyed P members = true ↔ ∀ entry ∈ members, entry.2.isKeyed P = true := by
  induction members with
  | nil => simp [membersKeyed]
  | cons entry rest ih =>
    rcases entry with ⟨key, v⟩
    rw [membersKeyed, Bool.and_eq_true, ih, List.forall_mem_cons]

theorem Value.isKeyed_iff {v : Value} : v.isKeyed P = true ↔ v.Keyed P := by
  induction v using Value.structural with
  | null | bool | num | str => exact iff_of_true rfl (.scalar rfl)
  | arr items ih =>
    rw [Value.isKeyed, itemsKeyed_iff]
    exact ⟨fun each => .arr fun v member => (ih v member).mp (each v member),
      fun keyed v member => (ih v member).mpr (keyed.items v member)⟩
  | obj members ih =>
    rw [Value.isKeyed, Bool.and_eq_true, decide_eq_true_iff, membersKeyed_iff]
    constructor
    · rintro ⟨keys, each⟩
      exact .obj keys fun entry member => (ih entry member).mp (each entry member)
    · intro keyed
      exact ⟨keyed.keys, fun entry member => (ih entry member).mpr (keyed.members entry member)⟩

instance (v : Value) : Decidable (v.Keyed P) := decidable_of_iff _ Value.isKeyed_iff

end

theorem empty_distinct : (Value.obj []).Distinct := .obj List.nodup_nil (List.forall_mem_nil _)

theorem itemsDepth_le {items : List Value} {levels : Nat} :
    itemsDepth items ≤ levels ↔ ∀ v ∈ items, v.depth ≤ levels := by
  induction items with
  | nil => simp [itemsDepth]
  | cons v rest ih =>
    rw [itemsDepth, Nat.max_le, ih, List.forall_mem_cons]

theorem membersDepth_le {members : Members} {levels : Nat} :
    membersDepth members ≤ levels ↔ ∀ entry ∈ members, entry.2.depth ≤ levels := by
  induction members with
  | nil => simp [membersDepth]
  | cons entry rest ih =>
    rcases entry with ⟨key, v⟩
    rw [membersDepth, Nat.max_le, ih, List.forall_mem_cons]

theorem depth_scalar {v : Value} (scalar : v.isScalar = true) : v.depth = 0 := by
  cases v with
  | arr items => cases scalar
  | obj members => cases scalar
  | _ => rfl

end StructuredLog.Json
