import StructuredLog.Proofs.Config.Agreement
import StructuredLog.Proofs.Config.Settling
import StructuredLog.Proofs.Table

/-!
Replacing variables inside strings and keys. Whatever the values of the variables are, a document
keeps its structure: every string becomes what comes of it alone, everything else stays what it is,
and members come together only when their keys become equal.
-/

namespace StructuredLog.Config

open Json (Value Members)

/-- A document with every string and key in it replaced by itself. Of members whose keys become
equal the last value stays, at the place of the first. -/
inductive Replaced (vars : Members) : Value → Value → Prop where
  | null : Replaced vars .null .null
  | bool (b : Bool) : Replaced vars (.bool b) (.bool b)
  | num (n : Json.Number) : Replaced vars (.num n) (.num n)
  | str {s t : String} (own : substituteString vars s = .ok t) : Replaced vars (.str s) (.str t)
  | arr {items results : List Value} (length : items.length = results.length)
      (each : ∀ (i : Nat) (v w : Value), items[i]? = some v → results[i]? = some w →
        Replaced vars v w) :
      Replaced vars (.arr items) (.arr results)
  | obj {members renamed result : Members} (length : members.length = renamed.length)
      (keys : ∀ (i : Nat) (old new : String × Value), members[i]? = some old →
        renamed[i]? = some new → substituteString vars old.1 = .ok new.1)
      (each : ∀ (i : Nat) (old new : String × Value), members[i]? = some old →
        renamed[i]? = some new → Replaced vars old.2 new.2)
      (collects : Table.Collects renamed result) :
      Replaced vars (.obj members) (.obj result)

theorem forall₂_iff_getElem? {α β : Type} {R : α → β → Prop} {xs : List α} {ys : List β} :
    List.Forall₂ R xs ys ↔
      xs.length = ys.length ∧ ∀ (i : Nat) a b, xs[i]? = some a → ys[i]? = some b → R a b := by
  induction xs generalizing ys with
  | nil => cases ys <;> simp
  | cons x xs ih =>
    cases ys with
    | nil => simp
    | cons y ys =>
      rw [List.forall₂_cons, ih, List.length_cons, List.length_cons, Nat.add_right_cancel_iff]
      constructor
      · rintro ⟨first, length, each⟩
        refine ⟨length, fun i a b own other => ?_⟩
        cases i with
        | zero =>
          cases own
          cases other
          exact first
        | succ i => exact each i a b own other
      · rintro ⟨length, each⟩
        exact ⟨each 0 x y rfl rfl, length, fun i => each (i + 1)⟩

section

variable {vars : Members}

theorem substituteItems_eq (vars : Members) (items : List Value) :
    substituteItems vars items = items.mapM (substituteTree vars) := by
  induction items with
  | nil => rfl
  | cons v rest ih =>
    rw [substituteItems, List.mapM_cons, ih]
    rfl

def substituteMember (vars : Members) (entry : String × Value) : Except Error (String × Value) := do
  let key ← substituteString vars entry.1
  let v ← substituteTree vars entry.2
  .ok (key, v)

theorem substituteMembers_eq (vars done : Members) (members : List (String × Value)) :
    substituteMembers vars done members =
      (members.mapM (substituteMember vars)).map
        (List.foldl (fun table entry => Table.put entry.1 entry.2 table) done) := by
  induction members generalizing done with
  | nil => rfl
  | cons entry rest ih =>
    rcases entry with ⟨key, v⟩
    rw [substituteMembers, List.mapM_cons, substituteMember]
    cases substituteString vars key with
    | error error => rfl
    | ok newKey =>
      cases substituteTree vars v with
      | error error => rfl
      | ok result =>
        simp only [bind, Except.bind, ih]
        cases rest.mapM (substituteMember vars) <;> rfl

theorem substituteMembers_nil (vars : Members) (members : List (String × Value)) :
    substituteMembers vars [] members =
      (members.mapM (substituteMember vars)).map Table.ofList :=
  substituteMembers_eq vars [] members

theorem substituteMember_ok {old new : String × Value} :
    substituteMember vars old = .ok new ↔
      substituteString vars old.1 = .ok new.1 ∧ substituteTree vars old.2 = .ok new.2 := by
  constructor
  · intro done
    obtain ⟨key, first, done⟩ := bind_ok done
    obtain ⟨v, second, same⟩ := bind_ok done
    cases same
    exact ⟨first, second⟩
  · rintro ⟨first, second⟩
    rw [substituteMember, first, second]
    rfl

theorem substituteTree_replaced {v w : Value} (done : substituteTree vars v = .ok w) :
    Replaced vars v w := by
  induction v using Value.structural generalizing w with
  | null =>
    cases done
    exact .null
  | bool b =>
    cases done
    exact .bool b
  | num n =>
    cases done
    exact .num n
  | str s =>
    rw [substituteTree] at done
    obtain ⟨t, own, rfl⟩ := map_ok done
    exact .str own
  | arr items ih =>
    rw [substituteTree, substituteItems_eq] at done
    obtain ⟨results, inner, rfl⟩ := map_ok done
    obtain ⟨length, each⟩ := forall₂_iff_getElem?.mp (mapM_ok_iff.mp inner)
    exact .arr length fun i v w own other =>
      ih v (List.mem_of_getElem? own) (each i v w own other)
  | obj members ih =>
    rw [substituteTree, substituteMembers_nil] at done
    obtain ⟨result, inner, rfl⟩ := map_ok done
    obtain ⟨renamed, all, rfl⟩ := map_ok inner
    obtain ⟨length, each⟩ := forall₂_iff_getElem?.mp (mapM_ok_iff.mp all)
    refine .obj length (fun i old new own other => ?_) (fun i old new own other => ?_)
      (Table.ofList_collects renamed)
    · exact (substituteMember_ok.mp (each i old new own other)).1
    · exact ih old (List.mem_of_getElem? own) (substituteMember_ok.mp (each i old new own other)).2

theorem Replaced.substituteTree {v w : Value} (replaced : Replaced vars v w) :
    substituteTree vars v = .ok w := by
  induction replaced with
  | null => rfl
  | bool b => rfl
  | num n => rfl
  | str own =>
    rw [Config.substituteTree, own]
    rfl
  | arr length each ih =>
    have inner := mapM_ok_iff.mpr (forall₂_iff_getElem?.mpr ⟨length, ih⟩)
    rw [Config.substituteTree, substituteItems_eq, inner]
    rfl
  | @obj members renamed result length keys each collects ih =>
    have inner : members.mapM (substituteMember vars) = .ok renamed := by
      apply mapM_ok_iff.mpr
      refine forall₂_iff_getElem?.mpr ⟨length, fun i old new own other => ?_⟩
      exact substituteMember_ok.mpr ⟨keys i old new own other, ih i old new own other⟩
    rw [Config.substituteTree, substituteMembers_nil, inner, collects.eq_ofList]
    rfl

theorem exists_beside {α β : Type} {xs : List α} {ys : List β} (length : xs.length = ys.length)
    {a : α} (member : a ∈ xs) : ∃ (i : Nat) (b : β), xs[i]? = some a ∧ ys[i]? = some b := by
  obtain ⟨i, here⟩ := List.mem_iff_getElem?.mp member
  have place : i < ys.length := length ▸ (List.getElem?_eq_some_iff.mp here).1
  exact ⟨i, ys[i], here, List.getElem?_eq_getElem place⟩

theorem Replaced.spelled {v w : Value} (replaced : Replaced vars v w) :
    v.Spelled fun s => ∃ t, substituteString vars s = .ok t := by
  induction replaced with
  | null => exact .null
  | bool b => exact .bool b
  | num n => exact .num n
  | str own => exact .str ⟨_, own⟩
  | arr length each ih =>
    refine .arr fun v member => ?_
    obtain ⟨i, w, own, other⟩ := exists_beside length member
    exact ih i v w own other
  | obj length keys each collects ih =>
    refine .obj (fun old member => ?_) (fun old member => ?_)
    · obtain ⟨i, new, own, other⟩ := exists_beside length member
      exact ⟨new.1, keys i old new own other⟩
    · obtain ⟨i, new, own, other⟩ := exists_beside length member
      exact ih i old new own other

/-- Replacing variables inside strings and keys is to replace each of them by itself. A document is
answered if all its strings and keys are. -/
theorem replaceVariables_inside (vars : Members) (v : Value) :
    (∀ w, replaceVariables .tree vars v = .ok w ↔ Replaced vars v w) ∧
      ((∃ w, replaceVariables .tree vars v = .ok w) ↔
        v.Spelled fun s => ∃ t, substituteString vars s = .ok t) := by
  refine ⟨fun w => ⟨substituteTree_replaced, Replaced.substituteTree⟩, ?_, ?_⟩
  · rintro ⟨w, done⟩
    exact (substituteTree_replaced done).spelled
  · intro spelled
    have strings := spelled.imp (Q := fun s => substituteString vars s = .ok (filled vars s))
      fun s ⟨t, own⟩ => by rw [filled, own]
    exact ⟨_, substituteTree_respell strings⟩

/-- A value closes nothing that stands around it, and members come together under one key. -/
example : replaceVariables .tree [("k", .str "x"), ("v", .str "\"\x7d")]
    (.obj [("x", .null), ("(^^k^^)", .arr [.str "(^^v^^)", .bool true])]) =
      .ok (.obj [("x", .arr [.str "\"\x7d", .bool true])]) := by rfl

end

end StructuredLog.Config
