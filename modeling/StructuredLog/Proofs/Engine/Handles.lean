import StructuredLog.Proofs.Engine.Sound

/-!
The handles that an engine holds. A call hands over at most one; if it succeeds the handle goes to
the end of those in use, and no call changes the order of the others.
-/

namespace StructuredLog.Engine

variable {S W : Type}

def Answer.succeeded : Answer → Bool
  | .result (.ok ()) => true
  | _ => false

variable [Handler S]

def Call.handedIds (c : Call S W) (e : Engine S W) : List Nat :=
  ((c.operation.handed? e).map Handle.id).toList

def Call.takenIds (c : Call S W) (e : Engine S W) : List Nat :=
  if (c.outcome e).answer.succeeded then c.handedIds e else []

def handedOver (e : Engine S W) : List (Call S W) → List Nat
  | [] => []
  | c :: rest => c.handedIds e ++ handedOver (c.outcome e).engine rest

def takenIn (e : Engine S W) : List (Call S W) → List Nat
  | [] => []
  | c :: rest => c.takenIds e ++ takenIn (c.outcome e).engine rest

theorem takenIds_sublist (c : Call S W) (e : Engine S W) :
    (c.takenIds e).Sublist (c.handedIds e) := by
  unfold Call.takenIds
  split
  · exact List.Sublist.refl _
  · exact List.nil_sublist _

/-- A call only leaves handles out, or adds the one that it takes in. -/
theorem ids_next (e : Engine S W) (distinct : (Table.keys e.instances).Nodup) (c : Call S W) :
    (c.outcome e).engine.ids.Sublist (e.ids ++ c.takenIds e) := by
  have effect := outcome_effect e distinct c
  unfold Call.takenIds Call.handedIds
  generalize c.operation.handed? e = handed at effect ⊢
  generalize c.operation.removes = removes at effect
  cases effect with
  | quiet quiet =>
    rw [quiet.ids]
    exact List.sublist_append_left _ _
  | refused handle error events answer closes quiet =>
    rw [quiet.ids]
    exact List.sublist_append_left _ _
  | taken name i answer silent absent last =>
    rw [answer, ids, last, List.map_append]
    exact List.Sublist.refl _
  | removed kept removed answer closes left order all =>
    rw [ids, left]
    exact (order.map _).trans (List.sublist_append_left _ _)

/-- Instances stand in the order in which their handles were taken in. -/
theorem ids_order (e : Engine S W) (calls : List (Call S W)) (sound : Sound e) :
    (e.after calls).ids.Sublist (e.ids ++ takenIn e calls) := by
  induction calls generalizing e with
  | nil =>
    rw [takenIn, List.append_nil]
    exact List.Sublist.refl _
  | cons c rest ih =>
    have later := ih (c.outcome e).engine (outcome_sound e c sound)
    apply later.trans
    rw [takenIn, ← List.append_assoc]
    exact (ids_next e sound.names c).append_right _

end StructuredLog.Engine
