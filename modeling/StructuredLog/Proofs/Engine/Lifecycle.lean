import Mathlib.Data.List.Nodup
import StructuredLog.Proofs.Engine.Handles

/-!
The life of a handle. It is handed over once; if it is refused it is closed in the same call, and
otherwise it is listed, gets whatever it gets, and is closed in the call that takes it off the list:
one that was asked to remove it, or the end of the engine.
-/

namespace StructuredLog

variable {S W : Type}

inductive Mark where
  | handed (taken : Bool)
  | listed
  | delivered
  | unlisted (asked : Bool)
  | closed
deriving DecidableEq

/-- What an event means for the handle with a number; `asked` says whether the call in which it
happens is there to remove. -/
def Event.mark? (asked : Bool) (id : Nat) (event : Event S) : Option Mark :=
  if event.receiver? = some id then some .delivered
  else if event.unlists? = some id then some (.unlisted asked)
  else if event.closes? = some id then some .closed
  else none

namespace Engine

def arrival (id : Nat) (before after : List Nat) : List Mark :=
  if id ∉ before ∧ id ∈ after then [.listed] else []

def dropMarks (id : Nat) (e : Engine S W) : List Mark :=
  e.dropped.filterMap (Event.mark? true id)

variable [Handler S]

/-- What a call does to a handle: it is handed over, it comes on the list, and what happens to it in
the order in which it happens. -/
def Call.marks (c : Call S W) (id : Nat) (e : Engine S W) : List Mark :=
  (if id ∈ c.handedIds e then [.handed (c.outcome e).answer.succeeded] else []) ++
    arrival id e.ids (c.outcome e).engine.ids ++
    (c.outcome e).events.filterMap (Event.mark? c.operation.removes id)

/-- What a run and the end of the engine do to a handle, call by call. -/
def marksOf (id : Nat) (e : Engine S W) : List (Call S W) → List (List Mark)
  | [] => [dropMarks id e]
  | c :: rest => c.marks id e :: marksOf id (c.outcome e).engine rest

def life (id : Nat) (e : Engine S W) (calls : List (Call S W)) : List (List Mark) :=
  (marksOf id e calls).filter fun marks => !marks.isEmpty

/-- A whole life, call by call: refused and closed at once, or listed, called any number of times,
and closed when it is taken off the list because that was asked for. -/
inductive WholeLife : List (List Mark) → Prop where
  | refused : WholeLife [[.handed false, .closed]]
  | used (calls : List (List Mark)) (only : ∀ marks ∈ calls, ∀ mark ∈ marks, mark = .delivered) :
      WholeLife ([.handed true, .listed] :: calls ++ [[.unlisted true, .closed]])

inductive RestOfLife : List (List Mark) → Prop where
  | used (calls : List (List Mark)) (only : ∀ marks ∈ calls, ∀ mark ∈ marks, mark = .delivered) :
      RestOfLife (calls ++ [[.unlisted true, .closed]])

theorem RestOfLife.cons {marks : List Mark} {rest : List (List Mark)} (later : RestOfLife rest)
    (only : ∀ mark ∈ marks, mark = .delivered) : RestOfLife (marks :: rest) := by
  cases later with
  | used calls others =>
    apply RestOfLife.used (marks :: calls)
    intro group member
    rcases List.mem_cons.mp member with same | other
    · rw [same]
      exact only
    · exact others group other

theorem RestOfLife.whole {rest : List (List Mark)} (later : RestOfLife rest) :
    WholeLife ([.handed true, .listed] :: rest) := by
  cases later with
  | used calls only => exact .used calls only

omit [Handler S] in
theorem Quiet.delivered {e next : Engine S W} {events : List (Event S)}
    (quiet : Quiet e next events) (asked : Bool) (id : Nat) :
    ∀ mark ∈ events.filterMap (Event.mark? asked id), mark = .delivered := by
  intro mark member
  obtain ⟨event, present, same⟩ := List.mem_filterMap.mp member
  have keeps := quiet.keeps event present
  simp only [Event.mark?, keeps.unlistsNone, keeps.closesNone, reduceCtorEq, ↓reduceIte] at same
  split at same
  · exact (Option.some.inj same).symm
  · cases same

omit [Handler S] in
theorem Quiet.silent {e next : Engine S W} {events : List (Event S)}
    (quiet : Quiet e next events) (asked : Bool) {id : Nat} (absent : id ∉ e.ids) :
    events.filterMap (Event.mark? asked id) = [] := by
  rw [List.filterMap_eq_nil_iff]
  intro event member
  have keeps := quiet.keeps event member
  have received : event.receiver? ≠ some id :=
    fun receives => absent (quiet.received event member id receives)
  simp only [Event.mark?, received, keeps.unlistsNone, keeps.closesNone, reduceCtorEq, ↓reduceIte]

omit [Handler S] in
theorem filterMap_once {A : Type} (mark : A) {id : Nat} {removed : Table (Instance S W)}
    (distinct : (removed.map fun entry => entry.2.handle.id).Nodup) :
    (removed.filterMap fun entry => if entry.2.handle.id = id then some mark else none) =
      if id ∈ removed.map (fun entry => entry.2.handle.id) then [mark] else [] := by
  induction removed with
  | nil => rfl
  | cons entry rest ih =>
    rw [List.map_cons, List.nodup_cons] at distinct
    rw [List.filterMap_cons, ih distinct.2]
    by_cases same : entry.2.handle.id = id
    · rw [same] at distinct
      simp only [List.map_cons, List.mem_cons, same, distinct.1, or_false, ↓reduceIte]
    · have differ : id ≠ entry.2.handle.id := fun equal => same equal.symm
      simp only [List.map_cons, List.mem_cons, same, differ, false_or, ↓reduceIte]

omit [Handler S] in
/-- A handle that is removed leaves the list first and is closed then. -/
theorem removals_marks (asked : Bool) (id : Nat) (removed : Table (Instance S W))
    (distinct : (removed.map fun entry => entry.2.handle.id).Nodup) :
    (removals removed).filterMap (Event.mark? asked id) =
      if id ∈ removed.map (fun entry => entry.2.handle.id) then [.unlisted asked, .closed]
      else [] := by
  rw [removals_filterMap]
  simp only [Event.mark?, Event.receiver?, Event.unlists?, Event.closes?, Option.some.injEq,
    reduceCtorEq, ↓reduceIte, filterMap_once _ distinct]
  split <;> rfl

omit [Handler S] in
theorem removals_absent (asked : Bool) {id : Nat} {removed : Table (Instance S W)}
    (absent : id ∉ removed.map fun entry => entry.2.handle.id) :
    (removals removed).filterMap (Event.mark? asked id) = [] := by
  have differ : ∀ entry ∈ removed, entry.2.handle.id ≠ id := by
    intro entry member same
    exact absent (same ▸ List.mem_map_of_mem member)
  have none {mark : Mark} : (removed.filterMap fun entry =>
      if entry.2.handle.id = id then some mark else none) = [] :=
    List.filterMap_eq_nil_iff.mpr fun entry member => if_neg (differ entry member)
  rw [removals_filterMap]
  simp only [Event.mark?, Event.receiver?, Event.unlists?, Event.closes?, Option.some.injEq,
    reduceCtorEq, ↓reduceIte, none, List.append_nil]

omit [Handler S] in
theorem arrival_known {id : Nat} {before : List Nat} (known : id ∈ before) (after : List Nat) :
    arrival id before after = [] := if_neg fun new => new.1 known

omit [Handler S] in
theorem arrival_absent {id : Nat} {after : List Nat} (absent : id ∉ after) (before : List Nat) :
    arrival id before after = [] := if_neg fun new => absent new.2

omit [Handler S] in
theorem closed_mark (handle : Handle S) (asked : Bool) (id : Nat) :
    (Event.closed handle).mark? asked id = if handle.id = id then some .closed else none := by
  simp only [Event.mark?, Event.receiver?, Event.unlists?, Event.closes?, reduceCtorEq, ↓reduceIte,
    Option.some.injEq]

/-- A handle that is on the list and not handed over again: it stays and is called, or it goes and
is closed. -/
theorem marks_listed {e : Engine S W} (names : (Table.keys e.instances).Nodup) (c : Call S W)
    {id : Nat} (distinct : e.ids.Nodup) (listed : id ∈ e.ids) (apart : id ∉ c.handedIds e) :
    (id ∈ (c.outcome e).engine.ids ∧ ∀ mark ∈ c.marks id e, mark = .delivered) ∨
      (id ∉ (c.outcome e).engine.ids ∧ c.marks id e = [.unlisted true, .closed]) := by
  have effect := outcome_effect e names c
  unfold Call.marks
  rw [if_neg apart, List.nil_append, arrival_known listed, List.nil_append]
  unfold Call.handedIds at apart
  generalize c.operation.handed? e = handed at effect apart
  generalize c.operation.removes = removes at effect ⊢
  cases effect with
  | quiet quiet =>
    left
    rw [quiet.ids]
    exact ⟨listed, quiet.delivered _ id⟩
  | refused handle error events answer closes quiet =>
    left
    have differ : ¬handle.id = id := by
      intro same
      exact apart (by simp [same])
    rw [quiet.ids, closes, List.filterMap_cons, closed_mark, if_neg differ]
    exact ⟨listed, quiet.delivered _ id⟩
  | taken name i answer silent absent last =>
    left
    rw [silent, ids, last, List.map_append]
    refine ⟨List.mem_append_left _ listed, ?_⟩
    intro mark member
    cases member
  | removed kept removed answer closes left order all =>
    have perm : (kept.map (fun entry => entry.2.handle.id) ++
        removed.map fun entry => entry.2.handle.id).Perm e.ids := by
      rw [← List.map_append]
      exact all.map _
    have parts := List.nodup_append.mp (perm.nodup_iff.mpr distinct)
    have marked := removals_marks true id removed parts.2.1
    have keptIds : (c.outcome e).engine.ids = kept.map fun entry => entry.2.handle.id := by
      rw [ids, left]
    rw [closes, marked, keptIds]
    rcases List.mem_append.mp (perm.mem_iff.mpr listed) with stays | goes
    · left
      have not_removed : id ∉ removed.map fun entry => entry.2.handle.id :=
        fun goes => parts.2.2 id stays id goes rfl
      rw [if_neg not_removed]
      refine ⟨stays, ?_⟩
      intro mark member
      cases member
    · right
      have not_kept : id ∉ kept.map fun entry => entry.2.handle.id :=
        fun stays => parts.2.2 id stays id goes rfl
      rw [if_pos goes]
      exact ⟨not_kept, rfl⟩

theorem marks_absent {e : Engine S W} (names : (Table.keys e.instances).Nodup) (c : Call S W)
    {id : Nat} (absent : id ∉ e.ids) (apart : id ∉ c.handedIds e) :
    id ∉ (c.outcome e).engine.ids ∧ c.marks id e = [] := by
  have after : id ∉ (c.outcome e).engine.ids := by
    intro member
    rcases List.mem_append.mp ((ids_next e names c).subset member) with old | new
    · exact absent old
    · exact apart ((takenIds_sublist c e).subset new)
  refine ⟨after, ?_⟩
  have effect := outcome_effect e names c
  unfold Call.marks
  rw [if_neg apart, List.nil_append, arrival_absent after, List.nil_append]
  unfold Call.handedIds at apart
  generalize c.operation.handed? e = handed at effect apart
  generalize c.operation.removes = removes at effect
  cases effect with
  | quiet quiet => exact quiet.silent _ absent
  | refused handle error events answer closes quiet =>
    have differ : ¬handle.id = id := by
      intro same
      exact apart (by simp [same])
    rw [closes, List.filterMap_cons, quiet.silent _ absent, closed_mark, if_neg differ]
  | taken name i answer silent absent last =>
    rw [silent]
    rfl
  | removed kept removed answer closes left order all =>
    rw [closes]
    apply removals_absent
    intro gone
    apply absent
    rw [ids]
    apply (all.map _).subset
    rw [List.map_append]
    exact List.mem_append_right _ gone

/-- A handle that is handed over for the first time: it is refused and closed, or listed. -/
theorem marks_handed {e : Engine S W} (names : (Table.keys e.instances).Nodup) (c : Call S W)
    {id : Nat} (absent : id ∉ e.ids) (handed : id ∈ c.handedIds e) :
    (id ∉ (c.outcome e).engine.ids ∧ c.marks id e = [.handed false, .closed]) ∨
      (id ∈ (c.outcome e).engine.ids ∧ c.marks id e = [.handed true, .listed]) := by
  have effect := outcome_effect e names c
  unfold Call.marks
  rw [if_pos handed]
  unfold Call.handedIds at handed
  generalize c.operation.handed? e = given at effect handed
  generalize c.operation.removes = removes at effect ⊢
  cases effect with
  | quiet quiet => cases handed
  | refused handle error events answer closes quiet =>
    left
    have same : handle.id = id := (List.mem_singleton.mp handed).symm
    rw [quiet.ids, arrival_absent absent, closes, List.filterMap_cons, quiet.silent _ absent,
      closed_mark, if_pos same, answer]
    exact ⟨absent, rfl⟩
  | taken name i answer silent _ last =>
    right
    have same : i.handle.id = id := (List.mem_singleton.mp handed).symm
    have listed : id ∈ (c.outcome e).engine.ids := by
      rw [ids, last, List.map_append]
      exact List.mem_append_right _ (by simp [same])
    rw [arrival, if_pos ⟨absent, listed⟩, answer, silent]
    exact ⟨listed, rfl⟩
  | removed kept removed answer closes left order all => cases handed

theorem life_cons (id : Nat) (e : Engine S W) (c : Call S W) (rest : List (Call S W)) :
    life id e (c :: rest) =
      if (c.marks id e).isEmpty then life id (c.outcome e).engine rest
      else c.marks id e :: life id (c.outcome e).engine rest := by
  unfold life
  rw [marksOf, List.filter_cons]
  cases (c.marks id e).isEmpty <;> rfl

omit [Handler S] in
theorem dropMarks_eq {e : Engine S W} (distinct : e.ids.Nodup) (id : Nat) :
    dropMarks id e = if id ∈ e.ids then [.unlisted true, .closed] else [] :=
  removals_marks true id e.instances distinct

/-- No handle is handed over twice, those in use included. -/
theorem apart_next {e : Engine S W} (sound : Sound e) {c : Call S W} {rest : List (Call S W)}
    (apart : (e.ids ++ handedOver e (c :: rest)).Nodup) :
    ((c.outcome e).engine.ids ++ handedOver (c.outcome e).engine rest).Nodup := by
  rw [handedOver, ← List.append_assoc] at apart
  have fewer : (c.outcome e).engine.ids.Sublist (e.ids ++ c.handedIds e) :=
    (ids_next e sound.names c).trans ((takenIds_sublist c e).append_left _)
  exact apart.sublist (fewer.append_right _)

theorem life_absent {id : Nat} {e : Engine S W} (sound : Sound e) (calls : List (Call S W))
    (absent : id ∉ e.ids) (never : id ∉ handedOver e calls) : life id e calls = [] := by
  induction calls generalizing e with
  | nil =>
    have none : dropMarks id e = [] := removals_absent true absent
    rw [life, marksOf, none]
    rfl
  | cons c rest ih =>
    rw [handedOver, List.mem_append, not_or] at never
    obtain ⟨after, none⟩ := marks_absent sound.names c absent never.1
    rw [life_cons, none]
    exact ih (outcome_sound e c sound) after never.2

theorem life_listed {id : Nat} {e : Engine S W} (sound : Sound e) (calls : List (Call S W))
    (apart : (e.ids ++ handedOver e calls).Nodup) (listed : id ∈ e.ids) :
    RestOfLife (life id e calls) := by
  induction calls generalizing e with
  | nil =>
    have closed : dropMarks id e = [.unlisted true, .closed] := by
      rw [dropMarks_eq (List.nodup_append.mp apart).1 id, if_pos listed]
    rw [life, marksOf, closed]
    exact RestOfLife.used [] (fun marks member => by cases member)
  | cons c rest ih =>
    have parts := List.nodup_append.mp apart
    have once : id ∉ c.handedIds e := by
      intro again
      exact parts.2.2 id listed id (List.mem_append_left _ again) rfl
    have next := outcome_sound e c sound
    rw [life_cons]
    -- Either the handle stays on the list and the rest of its life goes on, or this was its end.
    rcases marks_listed sound.names c parts.1 listed once with ⟨stays, only⟩ | ⟨gone, last⟩
    · have later := ih next (apart_next sound apart) stays
      split
      · exact later
      · exact later.cons only
    · have never : id ∉ handedOver (c.outcome e).engine rest := by
        intro again
        exact parts.2.2 id listed id (List.mem_append_right _ again) rfl
      rw [last, life_absent next rest gone never]
      exact RestOfLife.used [] (fun marks member => by cases member)

theorem life_handed {id : Nat} {e : Engine S W} (sound : Sound e) (calls : List (Call S W))
    (apart : (e.ids ++ handedOver e calls).Nodup) (handed : id ∈ handedOver e calls) :
    WholeLife (life id e calls) := by
  induction calls generalizing e with
  | nil => cases handed
  | cons c rest ih =>
    have parts := List.nodup_append.mp apart
    have absent : id ∉ e.ids := fun listed => parts.2.2 id listed id handed rfl
    have next := outcome_sound e c sound
    rw [life_cons]
    -- A handle that is handed over later is not known yet, and so this call leaves it alone.
    rcases List.mem_append.mp handed with now | later
    · have never : id ∉ handedOver (c.outcome e).engine rest := by
        intro again
        exact (List.nodup_append.mp parts.2.1).2.2 id now id again rfl
      rcases marks_handed sound.names c absent now with ⟨gone, marks⟩ | ⟨listed, marks⟩
      · rw [marks, life_absent next rest gone never]
        exact .refused
      · rw [marks]
        exact (life_listed next rest (apart_next sound apart) listed).whole
    · have once : id ∉ c.handedIds e := by
        intro again
        exact (List.nodup_append.mp parts.2.1).2.2 id again id later rfl
      obtain ⟨_, none⟩ := marks_absent sound.names c absent once
      rw [none]
      exact ih next (apart_next sound apart) later

theorem removal_count {e : Engine S W} (sound : Sound e) (c : Call S W)
    (removes : c.operation.removes = true) :
    ∃ n, (c.outcome e).answer = .count n ∧
      n + (c.outcome e).engine.instances.length = e.instances.length ∧
      n = ((c.outcome e).events.filterMap Event.closes?).length := by
  have effect := outcome_effect e sound.names c
  rw [removes] at effect
  generalize c.operation.handed? e = handed at effect
  cases effect with
  | removed kept removed answer closes left order all =>
    refine ⟨removed.length, answer, ?_, ?_⟩
    · have total := all.length_eq
      rw [List.length_append] at total
      rw [left]
      omega
    · rw [closes, removals_close, List.length_map]

/-- What was on the list and what a call takes in is on the list afterwards, or the call takes it
off the list, once. -/
theorem list_changes {e : Engine S W} (names : (Table.keys e.instances).Nodup) (c : Call S W) :
    ((c.outcome e).engine.ids ++ (c.outcome e).events.filterMap Event.unlists?).Perm
      (e.ids ++ c.takenIds e) := by
  have effect := outcome_effect e names c
  have kept {next : Engine S W} {events : List (Event S)} (quiet : Quiet e next events) :
      events.filterMap Event.unlists? = [] :=
    List.filterMap_eq_nil_iff.mpr fun event member => (quiet.keeps event member).unlistsNone
  unfold Call.takenIds Call.handedIds
  generalize c.operation.handed? e = handed at effect ⊢
  generalize c.operation.removes = removes at effect
  cases effect with
  | quiet quiet =>
    rw [quiet.ids, kept quiet]
    split <;> exact List.Perm.refl _
  | refused handle error events answer closes quiet =>
    rw [quiet.ids, closes, List.filterMap_cons, kept quiet, answer]
    exact List.Perm.refl _
  | taken name i answer silent absent last =>
    rw [silent, answer, ids, last, List.map_append]
    exact (List.append_nil _).symm ▸ List.Perm.refl _
  | removed kept removed answer closes left order all =>
    rw [closes, removals_unlist, answer, ids, left, ← List.map_append]
    exact (List.append_nil _).symm ▸ all.map _

/-- Every handle that a run hands over lives one whole life by the time the engine is given up, and
no other handle is ever touched; a call changes the list by what it takes in and by what it is seen
to take off, and removals count what they remove and close. A handle belongs to whoever holds it, so
that none is handed over again. Engines made from settings, and the attempts that were given up, are
such runs. -/
theorem handle_lifecycle (d : Design S W) (calls : List (Call S W))
    (once : (handedOver d.engine calls).Nodup) :
    (∀ id, if id ∈ handedOver d.engine calls then WholeLife (life id d.engine calls)
      else life id d.engine calls = []) ∧
    (∀ c : Call S W,
      let o := c.outcome (d.run calls)
      (o.engine.ids ++ o.events.filterMap Event.unlists?).Perm
        ((d.run calls).ids ++ c.takenIds (d.run calls))) ∧
    (∀ c : Call S W, c.operation.removes = true →
      let o := c.outcome (d.run calls)
      ∃ n, o.answer = .count n ∧ n + o.engine.instances.length = (d.run calls).instances.length ∧
        n = (o.events.filterMap Event.closes?).length) ∧
    ∀ host builtins surroundings settings executable,
      let d := Design.ofSettings host builtins settings
      let calls : List (Call S W) := callsOf host builtins surroundings settings executable
      let built := ofSettings host builtins surroundings settings executable
      match built.engine with
      | .ok e => e = d.run calls ∧ built.events = d.engine.eventsOf calls
      | .error _ => built.events = d.engine.eventsOf calls ++ (d.run calls).dropped := by
  refine ⟨?_, list_changes (run_sound d calls).names, ?_, ofSettings_run⟩
  · intro id
    split
    · next handed => exact life_handed (new_sound d) calls once handed
    · next never => exact life_absent (new_sound d) calls (by intro listed; cases listed) never
  · intro c removes
    exact removal_count (run_sound d calls) c removes

/-- Two memories that want the same name; the second is refused, and both may be called. -/
def contested : List (Call Sink Unit) :=
  [.startup ⟨"app", "1", "program"⟩,
    .add "m" "memory" .none ⟨1, .memory (.new false)⟩,
    .add "m" "memory" .none ⟨2, .memory (.new false)⟩,
    .log .info .none [("msg", .str "hello")],
    .remove "m"].map (Call.mk bareHost)

theorem contested_lives :
    (handedOver memoryDesign.engine contested).Nodup ∧
      WholeLife (life 1 memoryDesign.engine contested) ∧
      WholeLife (life 2 memoryDesign.engine contested) ∧
      life 3 memoryDesign.engine contested = [] := by
  have handed : handedOver memoryDesign.engine contested = [1, 2] := rfl
  have once : (handedOver memoryDesign.engine contested).Nodup := by
    rw [handed]
    decide
  have lives := (handle_lifecycle memoryDesign contested once).1
  rw [handed] at lives
  exact ⟨once, lives 1, lives 2, lives 3⟩

end Engine

end StructuredLog
