import Mathlib.Data.List.Basic
import StructuredLog.Proofs.Config.Groups

/-!
Where the groups of an object stand. Plain keys keep their order, and a group takes the place of its
template, unless its name is a plain key or an earlier template has the same group: then it keeps
the place that it has, and the template leaves none.
-/

namespace StructuredLog.Config

open Json (Value Members)

/-- What stands in the place of a key that comes after the keys `earlier` of an object. -/
def standIn (shape : Shape) (keys earlier : List String) (key : String) : List String :=
  match shape.group? key with
  | none => [key]
  | some group =>
      if (group ∈ keys ∧ shape.group? group = none) ∨
          ∃ template ∈ earlier, shape.group? template = some group then []
      else [group]

def standIns (shape : Shape) (keys : List String) : List String → List String → List String
  | _, [] => []
  | earlier, key :: rest =>
      standIn shape keys earlier key ++ standIns shape keys (earlier ++ [key]) rest

def expandedKeys (shape : Shape) (keys : List String) : List String := standIns shape keys [] keys

/-- Keys of an object of which the `earlier` ones were treated: a name that is no template is among
them if it was one of the keys or if an earlier template has it for its group. -/
def Placed (shape : Shape) (keys earlier now : List String) : Prop :=
  ∀ name, shape.group? name = none →
    (name ∈ now ↔ name ∈ keys ∨ ∃ template ∈ earlier, shape.group? template = some name)

section Treatment

variable {mode : Substitution} {shape : Shape} {expand : Value → Attempt Value}
  {key : String} {keys earlier front rest : List String} {members next last : Members}

theorem keys_placeGroup (before after : Members) (group : String) (v : Value) :
    Table.keys (placeGroup before after group v) =
      if group ∈ Table.keys before ++ Table.keys after then Table.keys before ++ Table.keys after
      else Table.keys before ++ group :: Table.keys after := by
  have all : Table.keys (before ++ after) = Table.keys before ++ Table.keys after :=
    List.map_append
  unfold placeGroup
  by_cases present : group ∈ Table.keys before ++ Table.keys after
  · have has : Table.has group (before ++ after) = true := by
      rw [Table.has_eq_true, all]
      exact present
    rw [if_pos has, Table.keys_put, all, if_pos present, if_pos present]
  · have absent : ¬Table.has group (before ++ after) = true := by
      rw [Table.has_eq_true, all]
      exact present
    rw [if_neg absent, if_neg present]
    exact List.map_append

theorem placed_initial (shape : Shape) (keys : List String) : Placed shape keys [] keys := by
  intro name _
  constructor
  · exact fun member => .inl member
  · rintro (member | ⟨template, earlier, -⟩)
    · exact member
    · cases earlier

/-- A group has a place already just where nothing stands in for its template. -/
theorem Placed.standIn_eq {group : String}
    (placed : Placed shape keys earlier (front ++ key :: rest))
    (isTemplate : shape.group? key = some group) :
    standIn shape keys earlier key = if group ∈ front ++ rest then [] else [group] := by
  have plain := Shape.group?_group isTemplate
  have differ : group ≠ key := by
    rintro rfl
    rw [plain] at isTemplate
    cases isTemplate
  have among : group ∈ front ++ key :: rest ↔ group ∈ front ++ rest := by
    rw [List.mem_append, List.mem_cons, List.mem_append, or_iff_right differ]
  have stands := among.symm.trans (placed group plain)
  rw [standIn, isTemplate]
  simp only [plain, and_true, stands]

theorem Treated.order (nodup : (Table.keys members).Nodup)
    (order : Table.keys members = front ++ key :: rest)
    (placed : Placed shape keys earlier (front ++ key :: rest))
    (treated : Treated mode shape expand key members next) :
    Table.keys next = front ++ (standIn shape keys earlier key ++ rest) := by
  have present : key ∈ Table.keys members := order ▸ List.mem_append_cons_self
  cases treated with
  | absent absent => exact absurd present absent
  | changed plain found expanded =>
    rw [Table.keys_put, if_pos present, order, standIn, plain]
    rfl
  | @replaced group before after template v result copies isTemplate place copied gathers
      expanded =>
    have split : front ++ key :: rest = Table.keys before ++ key :: Table.keys after := by
      rw [← order, place]
      exact List.map_append
    have only : key ∉ front ∧ key ∉ rest := by
      rw [order, List.nodup_middle, List.nodup_cons, List.mem_append, not_or] at nodup
      exact nodup.1
    obtain ⟨rfl, -, rfl⟩ := (List.append_cons_inj_of_notMem only.1 only.2).mp split
    rw [keys_placeGroup, placed.standIn_eq isTemplate]
    split <;> rfl

theorem Placed.step (placed : Placed shape keys earlier (front ++ key :: rest)) :
    Placed shape keys (earlier ++ [key]) (front ++ (standIn shape keys earlier key ++ rest)) := by
  intro name plain
  have before := placed name plain
  have others : (∃ template ∈ earlier ++ [key], shape.group? template = some name) ↔
      (∃ template ∈ earlier, shape.group? template = some name) ∨ shape.group? key = some name := by
    simp only [List.mem_append, List.mem_singleton, or_and_right, exists_or, exists_eq_left]
  rw [others, ← or_assoc, ← before]
  cases isTemplate : shape.group? key with
  | none =>
    rw [standIn, isTemplate]
    simp only [List.singleton_append, reduceCtorEq, or_false]
  | some group =>
    have differ : name ≠ key := by
      rintro rfl
      rw [plain] at isTemplate
      cases isTemplate
    have among : name ∈ front ++ key :: rest ↔ name ∈ front ++ rest := by
      rw [List.mem_append, List.mem_cons, List.mem_append, or_iff_right differ]
    rw [placed.standIn_eq isTemplate, among, Option.some.injEq]
    split
    · next present =>
      -- The group is there, so nothing changes but that its template is gone.
      rw [List.nil_append]
      constructor
      · exact fun member => .inl member
      · rintro (member | rfl)
        · exact member
        · exact present
    · simp only [List.mem_append, List.singleton_append, List.mem_cons, eq_comm (a := group)]
      rw [or_right_comm, or_assoc]

/-- When the keys before `rest` were treated, the others are treated where they stand. -/
theorem expandKeys_order (nodup : (Table.keys members).Nodup)
    (order : Table.keys members = front ++ rest)
    (placed : Placed shape keys earlier (front ++ rest))
    (done : expandKeys mode shape expand rest members = .ok last) :
    Table.keys last = front ++ standIns shape keys earlier rest := by
  induction rest generalizing members front earlier with
  | nil =>
    cases done
    rw [standIns]
    exact order
  | cons key rest ih =>
    obtain ⟨next, treated, later⟩ := expandKeys_treated done
    have now := treated.order nodup order placed
    have after := placed.step
    rw [← List.append_assoc] at now after
    rw [ih (treated.nodup nodup) now after later, standIns, List.append_assoc]

end Treatment

theorem expansion_positions {mode : Substitution} {shape : Shape} {members : Members} {v : Value}
    (nodup : (Table.keys members).Nodup) (expands : Expands mode shape (.obj members) v) :
    ∃ result, v = .obj result ∧
      Table.keys result = expandedKeys shape (Table.keys members) := by
  obtain ⟨levels, done⟩ := expands_iff.mp expands
  cases levels with
  | zero => cases done
  | succ levels =>
    rw [expandWithin] at done
    obtain ⟨result, inner, rfl⟩ := map_ok done
    refine ⟨result, rfl, ?_⟩
    have placed := placed_initial shape (Table.keys members)
    rw [← List.nil_append (Table.keys members)] at placed
    exact expandKeys_order nodup rfl placed inner

def mixedTemplates : Members :=
  [("a", .null), ("x[^^g^^]", templateOf seven [] (.str "p")), ("n", .arr [.null]),
    ("[^^g^^]y", templateOf seven [] (.str "p")), ("[^^n^^]", templateOf seven [] (.str "p"))]

/-- The new group stands where its first template stood, and the other one where it was. -/
theorem mixedTemplates_positions :
    (Table.keys mixedTemplates).Nodup ∧
      Expands .tree .array (.obj mixedTemplates)
        (.obj [("a", .null), ("g", .arr [.str "p", .str "p"]), ("n", .arr [.null, .str "p"])]) ∧
      expandedKeys .array (Table.keys mixedTemplates) = ["a", "g", "n"] := by
  have copied : ∀ key, instantiate .tree key (templateOf seven [] (.str "p")) =
      .ok [.str "p"] := by
    intro key
    rw [instantiate_templateOf _ _ rangeOf_seven]
    rfl
  have groups : Shape.array.group? "a" = none ∧ Shape.array.group? "x[^^g^^]" = some "g" ∧
      Shape.array.group? "n" = none ∧ Shape.array.group? "[^^g^^]y" = some "g" ∧
      Shape.array.group? "[^^n^^]" = some "n" := by decide
  have nodup : (Table.keys mixedTemplates).Nodup := by decide
  have done : expandWithin .tree .array 2 (.obj mixedTemplates) =
      .ok (.obj
        [("a", .null), ("g", .arr [.str "p", .str "p"]), ("n", .arr [.null, .str "p"])]) := by
    simp [mixedTemplates, expandWithin, expandKeys, Table.keys, groups, Table.split?,
      replaceTemplate_eq, copied, gathered, placeGroup, Table.has, Table.get?, changeMember,
      Table.put, bind, Except.bind, Except.map, Except.mapError,
      pure, Except.pure]
  obtain ⟨result, same, order⟩ := expansion_positions nodup (.of_within done)
  cases same
  exact ⟨nodup, .of_within done, order.symm⟩

end StructuredLog.Config
