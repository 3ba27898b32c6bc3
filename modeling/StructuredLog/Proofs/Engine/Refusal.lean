import StructuredLog.Proofs.Engine.FanOut
import StructuredLog.Proofs.Text.Utf8

/-!
What a refused operation does. It changes nothing of the engine's make-up. What the engine itself
refuses is logged as one error, after the handle that was handed over is closed; what a factory
refuses, and the lack of a factory, leave no trace at all.
-/

namespace StructuredLog.Engine

open Record (Fields)

variable {S W : Type}

def roster (e : Engine S W) : List (String × String × Options × HandlerType S W × Nat) :=
  e.instances.map fun entry =>
    (entry.1, entry.2.name, entry.2.options, entry.2.type, entry.2.handle.id)

/-- Engines that differ neither in what they were started for nor in what they hold. -/
structure Unmoved (e next : Engine S W) : Prop where
  app : next.app = e.app
  identity : next.identity = e.identity
  types : next.types = e.types
  roster : next.roster = e.roster
  slot : next.slot = e.slot
  size : next.pool.size = e.pool.size

theorem Quiet.roster {e next : Engine S W} {events : List (Event S)} (quiet : Quiet e next events) :
    next.roster = e.roster := by
  apply quiet.kept
  rintro name i j ⟨state, rfl⟩
  rfl

def Operation.fault? (e : Engine S W) : Operation S W → Option Error
  | .openHandler surroundings _ type _ params => e.fault? surroundings type params
  | _ => none

variable [Handler S]

/-- The events of one error that says why an operation was refused: everyone it comes to gets a
share of it, and the caller is told. -/
def refusalEvents (host : Host) (e : Engine S W) (error : Error) : List (Event Unit) :=
  let fields : Fields :=
    [("msgset", .str "Internal Error"), ("msg", .str error.message), ("code", .str error.code)]
  let record := recordFor (e.setting host) ⟨.error, .none, fields⟩
  (reached .error record e.instances).flatMap
      (share .none .error record (traceLines host.frames)) ++
    if e.informs then [.informed .error (e.counters.count .error + 1)] else []

/-- All that a refusal does that is logged. -/
structure Logged (host : Host) (e : Engine S W) (error : Error) (handed : Option (Handle S))
    (o : Outcome S W Answer) : Prop where
  engine : ∃ lastMessage pool instances,
    Text.LongestFit 256 error.message.toList lastMessage.toList ∧ o.engine = { e with
      counters := e.counters.increment .error
      lastMessage
      pool
      instances }
  events : o.events.map Event.bare =
    (handed.map fun handle => Event.closed ⟨handle.id, ()⟩).toList ++ refusalEvents host e error
  goesOn : ∀ event ∈ o.events, ∀ termination, event ≠ .ended termination

theorem log_unmoved (host : Host) (e : Engine S W) (s : Severity) (options : Options)
    (fields : Fields) : Unmoved e (e.log host s options fields).1 where
  app := rfl
  identity := rfl
  types := rfl
  roster := (log_quiet host e s options fields).roster
  slot := rfl
  size := (log_pool host e s options fields).1

theorem log_refusal {e : Engine S W} (sound : Sound e) (host : Host) (error : Error) :
    (e.log host .error .none (refusalFields error)).2.map Event.bare =
      refusalEvents host e error := by
  have counted : (e.counters.increment .error).count .error = e.counters.count .error + 1 := by
    rw [Counters.count_increment, if_pos rfl]
  have walked := spread_shares sound host ⟨.error, .none, refusalFields error⟩
  have none : (endings .none : List (Event S)) = [] := rfl
  simp only [log, none, List.append_nil, List.map_append, counted]
  rw [walked, refusalEvents]
  congr 1
  split <;> rfl

theorem refusalEvents_ended (host : Host) (e : Engine S W) (error : Error)
    (termination : Termination) : .ended termination ∉ refusalEvents host e error := by
  simp only [refusalEvents, share, List.mem_append, List.mem_flatMap]
  rintro (⟨i, _, wrote | shown⟩ | told)
  · split at wrote
    · cases List.mem_singleton.mp wrote
    · cases wrote
  · split at shown
    · obtain ⟨text, _, same⟩ := List.mem_map.mp shown
      cases same
    · cases shown
  · split at told
    · cases List.mem_singleton.mp told
    · cases told

theorem refuse_logged {e : Engine S W} (sound : Sound e) (host : Host) (error : Error)
    (handed : Option (Handle S)) :
    Logged host e error handed
      (answering .result (e.refuse host error (handed.map Event.closed).toList)) := by
  have events : ((handed.map Event.closed).toList ++
      (e.log host .error .none (refusalFields error)).2).map Event.bare =
        (handed.map fun handle => Event.closed ⟨handle.id, ()⟩).toList ++
          refusalEvents host e error := by
    rw [List.map_append, log_refusal sound host error]
    cases handed <;> rfl
  have kept : Text.LongestFit 256 error.message.toList
      (String.ofList (Text.clip messageCapacity error.message.toList)).toList := by
    rw [String.toList_ofList]
    exact Text.clip_fits 256 _
  refine ⟨⟨_, _, _, kept, rfl⟩, events, ?_⟩
  rintro event member termination rfl
  have bare : .ended termination ∈ (handed.map fun handle => Event.closed ⟨handle.id, ()⟩).toList ++
      refusalEvents host e error := by
    rw [← events]
    exact List.mem_map_of_mem member
  rcases List.mem_append.mp bare with closed | told
  · rw [Option.mem_toList, Option.map_eq_some_iff] at closed
    obtain ⟨handle, _, same⟩ := closed
    cases same
  · exact refusalEvents_ended host e error termination told

/-- A refusal is either logged, and then the engine itself refuses, or silent. -/
inductive Refused (host : Host) (e : Engine S W) (error : Error) (fault : Option Error)
    (handed : Option (Handle S)) (o : Outcome S W Answer) : Prop where
  | logged (own : fault = none) (kind : error.isRefusal = true)
      (same : o = answering .result (e.refuse host error (handed.map Event.closed).toList)) :
      Refused host e error fault handed o
  | silent (kind : fault = some error ∨ fault = none ∧ ∃ type, error = .notOpenable type)
      (same : o = ⟨.result (.error error), e, []⟩) : Refused host e error fault handed o

theorem add_refused (host : Host) (e : Engine S W) (name type : String) (options : Options)
    (handle : Handle S) {error : Error}
    (refused : (e.add host name type options handle).answer = .error error) :
    Refused host e error none (some handle)
      (answering .result (e.add host name type options handle)) := by
  rcases add_cases host e name type options handle with ⟨other, kind, same⟩ | ⟨t, _, same⟩
  · rw [same] at refused ⊢
    cases refused
    exact .logged rfl kind rfl
  · rw [same] at refused
    cases refused

theorem outcome_refused {e : Engine S W} (sound : Sound e) (c : Call S W) {error : Error}
    (refused : (c.outcome e).answer = .result (.error error)) :
    Refused c.host e error (c.operation.fault? e) (c.operation.handed? e) (c.outcome e) := by
  rcases c with ⟨host, operation⟩
  cases operation with
  | startup app =>
    simp only [Call.outcome, perform] at refused ⊢
    rcases startup_cases host e app with
      ⟨other, kind, same⟩ | ⟨other, _, full, same⟩ | ⟨h, pool, _, _, same⟩
    · rw [same] at refused ⊢
      cases refused
      exact .logged rfl kind rfl
    · -- There is always a buffer for a sound engine.
      obtain ⟨pool, b, given, _⟩ := withSlot_ok sound
      rw [given] at full
      cases full
    · rw [same] at refused
      cases refused
  | register type =>
    simp only [Call.outcome, perform] at refused ⊢
    rcases register_cases host e type with ⟨other, kind, same⟩ | ⟨_, same⟩
    · rw [same] at refused ⊢
      cases refused
      exact .logged rfl kind rfl
    · rw [same] at refused
      cases refused
  | add name type options handle =>
    exact add_refused host e name type options handle (Answer.result.inj refused)
  | openHandler surroundings name type options params =>
    simp only [Call.outcome, perform, Operation.fault?, Operation.handed?] at refused ⊢
    rcases openHandler_cases host e surroundings name type options params with
      ⟨none, ⟨other, ⟨kind, own⟩, same⟩ | ⟨other, kind, same⟩⟩ | ⟨handle, ⟨found, own⟩, same⟩
    · rw [same] at refused ⊢
      cases refused
      rw [none, own]
      exact .logged rfl kind rfl
    · rw [same] at refused ⊢
      cases refused
      exact .silent (kind.imp_right fun both => ⟨both.1, type, both.2⟩) rfl
    · rw [same] at refused ⊢
      rw [found, own]
      exact add_refused host e name type options handle (Answer.result.inj refused)
  | _ => cases refused

/-- An operation that is refused, after any run, moves nothing. If no factory failed and the engine
logs what it refuses, there is one error for the instances, and the handle that was handed over is
closed; if a factory failed, or there is none, nothing happens. There is no other way. -/
theorem refused_atomic (d : Design S W) (calls : List (Call S W)) (c : Call S W) (error : Error)
    (refused : (c.outcome (d.run calls)).answer = .result (.error error)) :
    let e := d.run calls
    let o := c.outcome e
    Unmoved e o.engine ∧
      (c.operation.fault? e = none → error.isRefusal = true →
        Logged c.host e error (c.operation.handed? e) o) ∧
      (c.operation.fault? e = some error ∨ (∃ type, error = .notOpenable type) →
        o.engine = e ∧ o.events = []) ∧
      (c.operation.fault? e = some error ∨
        c.operation.fault? e = none ∧ (error.isRefusal = true ∨ ∃ type, error = .notOpenable type))
    := by
  intro e o
  have sound : Sound e := run_sound d calls
  cases outcome_refused sound c refused with
  | logged own kind same =>
    have moved : Unmoved e o.engine := by
      simp only [o, same]
      exact log_unmoved c.host e .error .none (refusalFields error)
    have logged : Logged c.host e error (c.operation.handed? e) o := by
      simp only [o, same]
      exact refuse_logged sound c.host error (c.operation.handed? e)
    refine ⟨moved, fun _ _ => logged, ?_, .inr ⟨own, .inl kind⟩⟩
    rintro (fails | ⟨type, rfl⟩)
    · rw [own] at fails
      cases fails
    · cases kind
  | silent kind same =>
    have still : o.engine = e ∧ o.events = [] := by
      simp only [o, same, and_self]
    refine ⟨?_, ?_, fun _ => still, ?_⟩
    · rw [still.1]
      exact ⟨rfl, rfl, rfl, rfl, rfl, rfl⟩
    · intro own refusal
      rcases kind with fails | ⟨_, type, rfl⟩
      · rw [own] at fails
        cases fails
      · cases refusal
    · exact kind.imp_right fun both => ⟨both.1, .inr both.2⟩

/-- A name that is taken is refused aloud, and a type without a factory in silence. -/
theorem taken_name_refused :
    let calls : List (Call Sink Unit) :=
      [.startup ⟨"app", "1", "program"⟩, .setInforms true,
        .add "m" "memory" .none ⟨1, .memory (.new false)⟩].map (Call.mk bareHost)
    let again : Call Sink Unit :=
      ⟨bareHost, .add "m" "memory" .none ⟨2, .memory (.new false)⟩⟩
    let opening : Call Sink Unit := ⟨bareHost, .openHandler () "n" "memory" .none .null⟩
    let e := memoryDesign.run calls
    ((again.outcome e).answer = .result (.error (.instanceExists "m")) ∧
        Unmoved e (again.outcome e).engine ∧
        Logged bareHost e (.instanceExists "m") (some ⟨2, .memory (.new false)⟩)
          (again.outcome e)) ∧
      (opening.outcome e).answer = .result (.error (.notOpenable "memory")) ∧
      (opening.outcome e).engine = e ∧ (opening.outcome e).events = [] := by
  intro calls again opening e
  have loud := refused_atomic memoryDesign calls again (.instanceExists "m") rfl
  have silent := refused_atomic memoryDesign calls opening (.notOpenable "memory") rfl
  exact ⟨⟨rfl, loud.1, loud.2.1 rfl rfl⟩, rfl, silent.2.2.1 (.inr ⟨"memory", rfl⟩)⟩

end StructuredLog.Engine
