import StructuredLog.Config.Delay
import StructuredLog.Config.Merge
import StructuredLog.Config.Range
import StructuredLog.Config.Substitution

/-!
Templates: keys in marks whose value says for which numbers a content is written. The copies become
one object, or the items of one array, under the name between the marks.
-/

namespace StructuredLog.Config

open Json (Value Members)

def rangeKey : String := "__range__"

def varsKey : String := "__vars__"

def contentKey : String := "__content__"

inductive Shape where
  | object
  | array
deriving DecidableEq

def Shape.marks : Shape → Marks
  | .object => objectMarks
  | .array => arrayMarks

def Shape.group? (shape : Shape) (key : String) : Option String :=
  (shape.marks.firstName key.toList).map String.ofList

structure Template where
  range : List Int
  vars : Members
  content : Value

def Template.ofValue (key : String) : Value → Except Error Template
  | .obj members =>
      match (Table.keys members).find? fun k => k ∉ [rangeKey, varsKey, contentKey] with
      | some extra => .error (.badTemplate (.extraKey key extra))
      | none => do
          let part (name : String) : Except Error Value :=
            match Table.get? name members with
            | some v => .ok v
            | none => .error (.missingTemplateKey key name)
          let range ← rangeOf (← part rangeKey)
          let vars ← match ← part varsKey with
            | .obj vars => .ok vars
            | other => .error (.badTemplate (.varsNotObject key other.kind))
          let content ← part contentKey
          .ok ⟨range, vars, content⟩
  | v => .error (.badTemplate (.notObject key v.kind))

def Template.varsFor (t : Template) (i : Int) : Members :=
  Table.put rangeKey (.str (String.ofList (Json.intText i))) t.vars

def Template.copies (mode : Substitution) (t : Template) : Except Error (List Value) :=
  t.range.mapM fun i => replaceVariables mode (t.varsFor i) t.content

def instantiate (mode : Substitution) (key : String) (v : Value) : Except Error (List Value) := do
  (← Template.ofValue key v).copies mode

/-- The copies as one object, the later ones having precedence. -/
def mergeCopies (key : String) : Members → List Value → Except Error Members
  | merged, [] => .ok merged
  | merged, .obj members :: rest => mergeCopies key (mergeMembers true merged members) rest
  | _, v :: _ => .error (.badTemplate (.expansionNotObject key v.kind))

/-- Puts a group between the members before and after its template, or in the place of the member
that has its name already. -/
def placeGroup (before after : Members) (group : String) (v : Value) : Members :=
  if Table.has group (before ++ after) then Table.put group v (before ++ after)
  else before ++ (group, v) :: after

def replaceTemplate (mode : Substitution) (shape : Shape) (key group : String)
    (before : Members) (template : Value) (after : Members) : Except Error Members := do
  let copies ← instantiate mode key template
  match shape with
  | .object =>
      let merged ← mergeCopies key [] copies
      .ok (placeGroup before after group (.obj merged))
  | .array =>
      match Table.get? group (before ++ after) with
      | some (.arr items) => .ok (Table.put group (.arr (items ++ copies)) (before ++ after))
      | some other => .error (.badTemplate (.groupNotArray group other.kind))
      | none => .ok (placeGroup before after group (.arr copies))

def changeMember (change : Value → Attempt Value) (key : String) (members : Members) :
    Attempt Members :=
  match Table.get? key members with
  | some v => (change v).map fun v => Table.put key v members
  | none => .ok members

theorem changeMember_below {first second : Value → Attempt Value}
    (each : ∀ v, Below (first v) (second v)) (key : String) (members : Members) :
    Below (changeMember first key members) (changeMember second key members) := by
  unfold changeMember
  cases Table.get? key members with
  | none => exact .refl _
  | some v => exact (each v).map _

/-- Treats the keys of an object one after another, as they were at the beginning: a template is
replaced by its group, and the value under the key or the group is then expanded in turn. -/
def expandKeys (mode : Substitution) (shape : Shape) (expand : Value → Attempt Value) :
    List String → Members → Attempt Members
  | [], members => .ok members
  | key :: rest, members => do
      let members ← match shape.group? key with
        | none => changeMember expand key members
        | some group => match Table.split? key members with
          | none => .ok members
          | some (before, template, after) => do
              let replaced := replaceTemplate mode shape key group before template after
              let members ← replaced.mapError some
              changeMember expand group members
      expandKeys mode shape expand rest members

theorem expandKeys_below {mode : Substitution} {shape : Shape}
    {first second : Value → Attempt Value}
    (each : ∀ v, Below (first v) (second v)) (keys : List String) (members : Members) :
    Below (expandKeys mode shape first keys members)
      (expandKeys mode shape second keys members) := by
  induction keys generalizing members with
  | nil => exact .refl _
  | cons key rest ih =>
    rw [expandKeys, expandKeys]
    cases shape.group? key with
    | none => exact (changeMember_below each key members).bind ih
    | some group =>
      simp only
      cases Table.split? key members with
      | none => exact ih members
      | some parts =>
        exact (Below.refl _).bind fun placed => (changeMember_below each group placed).bind ih

/-- Expands the templates of one shape. It is given up where containers are expanded more than
`levels` deep one inside another. -/
def expandWithin (mode : Substitution) (shape : Shape) : Nat → Value → Attempt Value
  | levels + 1, .obj members =>
      (expandKeys mode shape (expandWithin mode shape levels) (Table.keys members) members).map .obj
  | levels + 1, .arr items => (items.mapM (expandWithin mode shape levels)).map .arr
  | 0, .obj _ | 0, .arr _ => .error none
  | _, v => .ok v

/-- With more levels an expansion comes to the same, or it was given up with fewer. -/
theorem expandWithin_below (mode : Substitution) (shape : Shape) {levels more : Nat}
    (enough : levels ≤ more) (v : Value) :
    Below (expandWithin mode shape levels v) (expandWithin mode shape more v) := by
  induction levels generalizing v more with
  | zero =>
    cases v with
    | arr items => exact .inl rfl
    | obj members => exact .inl rfl
    | _ => cases more <;> exact .refl _
  | succ levels ih =>
    obtain ⟨more, rfl⟩ := Nat.exists_eq_add_of_le' enough
    have each : ∀ v, Below (expandWithin mode shape levels v)
        (expandWithin mode shape (more + levels) v) := ih (Nat.le_add_left _ _)
    rw [← Nat.add_assoc]
    cases v with
    | arr items => exact (Below.mapM each items).map _
    | obj members => exact (expandKeys_below each _ members).map _
    | _ => exact .refl _

/-- Expands all templates of one shape. Inside strings that always ends. In the text of a document
the copies of a template may be the template again, and then there is no end. -/
def expandShape (mode : Substitution) (shape : Shape) (v : Value) : Eventual Value where
  within levels := ended (expandWithin mode shape levels v)
  stays enough := (expandWithin_below mode shape enough v).ended

def expandAll (mode : Substitution) (v : Value) : Eventual Value := do
  expandShape mode .array (← expandShape mode .object v)

end StructuredLog.Config
