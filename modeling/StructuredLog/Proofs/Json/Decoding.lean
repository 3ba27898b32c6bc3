import StructuredLog.Json.Decode

/-!
Decoders on what they are meant for: lists item by item, and records member by member.
-/

namespace StructuredLog.Json.Decoder

variable {α β : Type}

theorem list_map {item : Decoder α} {toValue : α → Value} {as : List α}
    (each : ∀ a ∈ as, item (toValue a) = .ok a) : list item (.arr (as.map toValue)) = .ok as := by
  rw [list]
  induction as with
  | nil => rfl
  | cons a rest ih =>
    rw [List.forall_mem_cons] at each
    rw [List.map_cons, List.mapM_cons, each.1, ih each.2]
    rfl

theorem field_set {decode : Decoder β} {v : Value} {b : β} (decoded : decode v = .ok b)
    (name : String) (set : β → α → α) (record : α) :
    (field name decode set).set v record = .ok (set b record) :=
  congrArg (Except.map (set · record)) decoded

theorem fromMembers_cons {fields : List (Field α)} {key : String} {f : Field α} {v : Value}
    {record next : α} (found : fields.find? (·.name == key) = some f)
    (set : f.set v record = .ok next) (rest : List (String × Value)) :
    fromMembers fields ((key, v) :: rest) record = fromMembers fields rest next := by
  rw [fromMembers, found]
  simp only [set]
  rfl

/-- An object that lacks no required field is what its members make of the defaults. -/
theorem record_obj {name : String} {fields : List (Field α)} {members : Members}
    {initial result : α} (reads : fromMembers fields members initial = .ok result)
    (complete : fields.find? (fun f => f.required && !Table.has f.name members) = none) :
    record name fields initial (.obj members) = .ok result := by
  rw [record, reads]
  simp only [bind, Except.bind]
  rw [complete]

end StructuredLog.Json.Decoder
