import Mathlib.Data.List.Perm.Basic
import StructuredLog.Proofs.Engine.Run
import StructuredLog.Proofs.Engine.Walk

/-!
What each operation can do. To the instances of an engine there are four things: they are called and
otherwise left alone, a handle is refused and closed, a handle is taken in at the end, or instances
are removed and closed.
-/

namespace StructuredLog

variable {S W : Type}

/-- What an engine itself refuses, and logs as an error when it does. -/
def Error.isRefusal : Error → Bool
  | .alreadyStarted _ | .notStarted | .typeTableFull _ _ | .typeExists _ | .unknownType _
  | .instanceExists _ => true
  | _ => false

def Event.closes? : Event S → Option Nat
  | .closed handle => some handle.id
  | _ => none

def Event.unlists? : Event S → Option Nat
  | .unlisted handle => some handle.id
  | _ => none

structure Event.Keeps (event : Event S) : Prop where
  closesNone : event.closes? = none
  unlistsNone : event.unlists? = none

theorem Event.keeps_of_receiver? {event : Event S} {id : Nat}
    (receives : event.receiver? = some id) : event.Keeps := by
  cases event with
  | wrote handle s data => exact ⟨rfl, rfl⟩
  | formatted handle s text => exact ⟨rfl, rfl⟩
  | unlisted handle => cases receives
  | closed handle => cases receives
  | ended termination => cases receives
  | informed s count => cases receives

namespace Engine

open Record (Fields)

def ids (e : Engine S W) : List Nat := e.instances.map fun entry => entry.2.handle.id

/-- What is seen of the two events of every instance that is removed. -/
theorem removals_filterMap {A : Type} (seen? : Event S → Option A)
    (removed : Table (Instance S W)) :
    (removals removed).filterMap seen? =
      (removed.filterMap fun entry => seen? (.unlisted entry.2.handle)) ++
        removed.filterMap fun entry => seen? (.closed entry.2.handle) := by
  rw [removals, List.filterMap_append, List.filterMap_map, List.filterMap_map]
  rfl

theorem removals_close (removed : Table (Instance S W)) :
    (removals removed).filterMap Event.closes? =
      removed.map fun entry => entry.2.handle.id := by
  rw [removals_filterMap]
  simp only [Event.closes?, List.filterMap_none, List.nil_append, List.filterMap_eq_map']

theorem removals_unlist (removed : Table (Instance S W)) :
    (removals removed).filterMap Event.unlists? =
      removed.map fun entry => entry.2.handle.id := by
  rw [removals_filterMap]
  simp only [Event.unlists?, List.filterMap_none, List.append_nil, List.filterMap_eq_map']

/-- No instance comes or goes, and only handles in use are called. -/
structure Quiet (e next : Engine S W) (events : List (Event S)) : Prop where
  kept : ∀ {A : Type} (f : String × Instance S W → A),
    (∀ name i j, Alike i j → f (name, j) = f (name, i)) →
      next.instances.map f = e.instances.map f
  received : ∀ event ∈ events, ∀ id, event.receiver? = some id → id ∈ e.ids
  keeps : ∀ event ∈ events, event.Keeps

theorem Quiet.ids {e next : Engine S W} {events : List (Event S)} (quiet : Quiet e next events) :
    next.ids = e.ids :=
  quiet.kept _ fun _ _ _ alike => alike.id

theorem Quiet.keys {e next : Engine S W} {events : List (Event S)} (quiet : Quiet e next events) :
    Table.keys next.instances = Table.keys e.instances :=
  quiet.kept _ fun _ _ _ _ => rfl

/-- What is said of instances apart from the states of their handles stays true. -/
theorem Quiet.holds {e next : Engine S W} {events : List (Event S)} (quiet : Quiet e next events)
    {P : String × Instance S W → Prop}
    (stable : ∀ name i j, Alike i j → P (name, j) = P (name, i))
    (held : ∀ entry ∈ e.instances, P entry) : ∀ entry ∈ next.instances, P entry := by
  have same := quiet.kept P stable
  intro entry member
  have among : P entry ∈ e.instances.map P := same ▸ List.mem_map_of_mem member
  obtain ⟨old, present, equal⟩ := List.mem_map.mp among
  rw [← equal]
  exact held old present

theorem Quiet.still {e next : Engine S W} (same : next.instances = e.instances) :
    Quiet e next [] where
  kept := by
    intro A f _
    rw [same]
  received := by
    intro event member
    cases member
  keeps := by
    intro event member
    cases member

theorem Quiet.append {e next : Engine S W} {events more : List (Event S)}
    (quiet : Quiet e next events)
    (received : ∀ event ∈ more, event.receiver? = none)
    (keeps : ∀ event ∈ more, event.Keeps) : Quiet e next (events ++ more) where
  kept := quiet.kept
  received := by
    intro event member id receives
    rcases List.mem_append.mp member with first | second
    · exact quiet.received event first id receives
    · rw [received event second] at receives
      cases receives
  keeps := List.forall_mem_append.mpr ⟨quiet.keeps, keeps⟩

theorem quiet_walk {C : Type} {visit : C → Instance S W → Visit C S W}
    (isLocal : ∀ carried i, (visit carried i).Local i) (e next : Engine S W) (carried : C)
    (walked : next.instances = (walk visit carried e.instances).instances) :
    Quiet e next (walk visit carried e.instances).events where
  kept := by
    intro A f stable
    rw [walked]
    exact walk_map isLocal f stable carried e.instances
  received := by
    intro event member id receives
    obtain ⟨entry, present, own⟩ := walk_receivers isLocal carried e.instances event member
    rw [own] at receives
    exact Option.some.inj receives ▸ List.mem_map_of_mem present
  keeps := by
    intro event member
    obtain ⟨entry, _, own⟩ := walk_receivers isLocal carried e.instances event member
    exact Event.keeps_of_receiver? own

theorem endings_quiet (options : Options) :
    ∀ event ∈ (endings options : List (Event S)),
      event.receiver? = none ∧ event.Keeps := by
  intro event member
  rw [endings, Option.mem_toList, Option.map_eq_some_iff] at member
  obtain ⟨termination, _, same⟩ := member
  rw [← same]
  exact ⟨rfl, rfl, rfl⟩

theorem typeFor_ok {e : Engine S W} {name type : String} {t : HandlerType S W}
    (found : e.typeFor name type = .ok t) :
    e.isStarted = true ∧ name ∉ Table.keys e.instances ∧ Table.get? type e.types = some t := by
  unfold typeFor at found
  split at found
  · cases found
  · next started =>
    split at found
    · cases found
    · next absent =>
      split at found
      · next known =>
        cases found
        refine ⟨by simpa using started, ?_, known⟩
        intro member
        exact absent ((Table.has_eq_true name e.instances).mpr member)
      · cases found

theorem typeFor_error {e : Engine S W} {name type : String} {error : Error}
    (refused : e.typeFor name type = .error error) : error.isRefusal = true := by
  unfold typeFor at refused
  split at refused
  · cases refused
    rfl
  · split at refused
    · cases refused
      rfl
    · split at refused
      · cases refused
      · cases refused
        rfl

theorem noRoom?_some {maxTypes taken : Nat} {types : Table (HandlerType S W)}
    {incoming : List (HandlerType S W)} {error : Error}
    (full : noRoom? maxTypes types taken incoming = some error) : error.isRefusal = true := by
  induction incoming generalizing taken with
  | nil => cases full
  | cons t rest ih =>
    unfold noRoom? at full
    split at full
    · cases full
      rfl
    · split at full
      · cases full
        rfl
      · exact ih full

def opened? (e : Engine S W) (surroundings : W) (type : String) (params : Json.Value) :
    Option (Handle S) :=
  match (Table.get? type e.types).bind HandlerType.factory with
  | none => none
  | some make => (make params surroundings).1.toOption

def fault? (e : Engine S W) (surroundings : W) (type : String) (params : Json.Value) :
    Option Error :=
  match (Table.get? type e.types).bind HandlerType.factory with
  | none => none
  | some make => match (make params surroundings).1 with
    | .error error => some error
    | .ok _ => none

theorem remove_cases (e : Engine S W) (name : String)
    (distinct : (Table.keys e.instances).Nodup) :
    ∃ kept removed,
      e.remove name = ⟨removed.length, { e with instances := kept }, removals removed⟩ ∧
      kept.Sublist e.instances ∧ (kept ++ removed).Perm e.instances := by
  unfold remove
  by_cases all : name = ""
  · simp only [all, ↓reduceIte]
    exact ⟨[], e.instances, rfl, List.nil_sublist _, List.Perm.refl _⟩
  · simp only [all, ↓reduceIte]
    refine ⟨_, _, rfl, ?_, ?_⟩
    · rw [Table.erase_eq_filter name e.instances distinct]
      exact List.filter_sublist
    · rw [Table.erase_eq_filter name e.instances distinct]
      exact (List.perm_append_comm).trans
        (List.filter_append_perm (fun entry => entry.1 == name) e.instances)

variable [Handler S]

theorem log_quiet (host : Host) (e : Engine S W) (s : Severity) (options : Options)
    (fields : Fields) :
    Quiet e (e.log host s options fields).1 (e.log host s options fields).2 := by
  have walked := quiet_walk
    (deliver_local (e.setting host) e.slot (Stack.enclose host.frames) ⟨s, options, fields⟩) e
    (e.log host s options fields).1 e.pool rfl
  have ended := walked.append (fun event member => (endings_quiet options event member).1)
    (fun event member => (endings_quiet options event member).2)
  apply ended.append
  · intro event member
    split at member
    · rw [List.mem_singleton.mp member]
      rfl
    · cases member
  · intro event member
    split at member
    · rw [List.mem_singleton.mp member]
      exact ⟨rfl, rfl⟩
    · cases member

theorem logRaw_quiet (e : Engine S W) (s : Severity) (options : Options) (data : Text.Bytes) :
    Quiet e (e.logRaw s options data).1 (e.logRaw s options data).2 := by
  have walked := quiet_walk (deliverRaw_local s data) e (e.logRaw s options data).1 () rfl
  exact walked.append (fun event member => (endings_quiet options event member).1)
    (fun event member => (endings_quiet options event member).2)

theorem display_quiet (e : Engine S W) (s : Severity) (lines : List String) :
    Quiet e (e.display s lines).1 (e.display s lines).2 :=
  quiet_walk (deliverLines_local s lines) e _ () rfl

/-- An engine starts, or says why not; a full pool of buffers is not logged. -/
theorem startup_cases (host : Host) (e : Engine S W) (app : AppInfo) :
    (∃ error, error.isRefusal = true ∧ e.startup host app = e.refuse host error []) ∨
      (∃ error pool, e.withSlot = (.error error, pool) ∧
        e.startup host app = ⟨.error error, { e with pool }, []⟩) ∨
      ∃ h pool, e.refusal? e.builtins = none ∧ e.withSlot = (.ok h, pool) ∧
        e.startup host app = ⟨.ok (), { e with
          slot := some h
          pool
          types := enroll e.types e.builtins
          app := some app
          identity := .ofExecutable host app.executable }, []⟩ := by
  unfold startup
  cases running : e.app with
  | some started => exact .inl ⟨_, rfl, rfl⟩
  | none =>
    cases full : e.refusal? e.builtins with
    | some error => exact .inl ⟨error, noRoom?_some full, rfl⟩
    | none =>
      rcases slot : e.withSlot with ⟨error | h, pool⟩
      · exact .inr (.inl ⟨error, pool, rfl, rfl⟩)
      · exact .inr (.inr ⟨h, pool, rfl, rfl, rfl⟩)

theorem register_cases (host : Host) (e : Engine S W) (t : HandlerType S W) :
    (∃ error, error.isRefusal = true ∧ e.register host t = e.refuse host error []) ∨
      (e.refusal? [t] = none ∧
        e.register host t = ⟨.ok (), { e with types := enroll e.types [t] }, []⟩) := by
  unfold register
  cases full : e.refusal? [t] with
  | some error => exact .inl ⟨error, noRoom?_some full, rfl⟩
  | none => exact .inr ⟨rfl, rfl⟩

/-- A handle is taken in at the end under a new name, or refused and closed. -/
theorem add_cases (host : Host) (e : Engine S W) (name type : String) (options : Options)
    (handle : Handle S) :
    (∃ error, error.isRefusal = true ∧
      e.add host name type options handle = e.refuse host error [.closed handle]) ∨
      ∃ t, e.typeFor name type = .ok t ∧
        e.add host name type options handle = ⟨.ok (), { e with instances :=
          e.instances ++ [(name, ⟨name, completed options, t, handle⟩)] }, []⟩ := by
  unfold add
  cases found : e.typeFor name type with
  | error error => exact .inl ⟨error, typeFor_error found, rfl⟩
  | ok t =>
    refine .inr ⟨t, rfl, ?_⟩
    simp only [Table.put_absent _ _ _ (typeFor_ok found).2.1]

/-- A handle that was opened is added. Without one the operation is refused, silently where the type
has no factory or its factory fails. -/
theorem openHandler_cases (host : Host) (e : Engine S W) (surroundings : W) (name type : String)
    (options : Options) (params : Json.Value) :
    (e.opened? surroundings type params = none ∧
      ((∃ error, (error.isRefusal = true ∧ e.fault? surroundings type params = none) ∧
          (e.openHandler host surroundings name type options params).1 =
            e.refuse host error []) ∨
        ∃ error, (e.fault? surroundings type params = some error ∨
            e.fault? surroundings type params = none ∧ error = .notOpenable type) ∧
          (e.openHandler host surroundings name type options params).1 =
            ⟨.error error, e, []⟩)) ∨
      ∃ handle, (e.opened? surroundings type params = some handle ∧
          e.fault? surroundings type params = none) ∧
        (e.openHandler host surroundings name type options params).1 =
          e.add host name type options handle := by
  unfold openHandler opened? fault?
  cases known : Table.get? type e.types with
  | none => exact .inl ⟨rfl, .inl ⟨.unknownType type, ⟨rfl, rfl⟩, rfl⟩⟩
  | some t =>
    rw [Option.bind_some]
    cases openable : t.factory with
    | none =>
      exact .inl ⟨rfl, .inr ⟨.notOpenable type, .inr ⟨rfl, rfl⟩, by simp only [openable]⟩⟩
    | some make =>
      rcases made : make params surroundings with ⟨answer, surroundings'⟩
      cases answer with
      | error error =>
        exact .inl ⟨by simp only [Except.toOption, made],
          .inr ⟨error, .inl (by simp only [made]), by simp only [openable, made]⟩⟩
      | ok handle =>
        exact .inr ⟨handle, ⟨by simp only [Except.toOption, made], by simp only [made]⟩,
          by simp only [openable, made]⟩

/-- The handle that an operation hands over to the engine: one that is added, or one that a factory
opens on the way. -/
def Operation.handed? (e : Engine S W) : Operation S W → Option (Handle S)
  | .add _ _ _ handle => some handle
  | .openHandler surroundings _ type _ params => e.opened? surroundings type params
  | _ => none

def Operation.removes : Operation S W → Bool
  | .remove _ => true
  | .shutdown => true
  | _ => false

/-- What can become of the instances by an operation that hands over a handle or none, and that is
or is not there to remove. -/
inductive Effect (e : Engine S W) (o : Outcome S W Answer) : Option (Handle S) → Bool → Prop where
  | quiet (quiet : Quiet e o.engine o.events) : Effect e o none false
  | refused (handle : Handle S) (error : Error) (events : List (Event S))
      (answer : o.answer = .result (.error error)) (closes : o.events = .closed handle :: events)
      (quiet : Quiet e o.engine events) : Effect e o (some handle) false
  | taken (name : String) (i : Instance S W) (answer : o.answer = .result (.ok ()))
      (silent : o.events = []) (absent : name ∉ Table.keys e.instances)
      (last : o.engine.instances = e.instances ++ [(name, i)]) : Effect e o (some i.handle) false
  | removed (kept removed : Table (Instance S W)) (answer : o.answer = .count removed.length)
      (closes : o.events = removals removed) (left : o.engine.instances = kept)
      (order : kept.Sublist e.instances) (all : (kept ++ removed).Perm e.instances) :
      Effect e o none true

omit [Handler S] in
theorem removed_effect (e : Engine S W) (name : String)
    (distinct : (Table.keys e.instances).Nodup) (next : Engine S W)
    (same : next.instances = (e.remove name).engine.instances) :
    Effect e ⟨.count (e.remove name).answer, next, (e.remove name).events⟩ none true := by
  obtain ⟨kept, removed, outcome, order, all⟩ := remove_cases e name distinct
  rw [outcome] at same ⊢
  exact .removed kept removed rfl rfl same order all

theorem refuse_effect (host : Host) (e : Engine S W) (error : Error) :
    Effect e (answering .result (e.refuse host error [])) none false :=
  .quiet (log_quiet host e .error .none (refusalFields error))

theorem add_effect (host : Host) (e : Engine S W) (name type : String) (options : Options)
    (handle : Handle S) :
    Effect e (answering .result (e.add host name type options handle)) (some handle) false := by
  rcases add_cases host e name type options handle with ⟨error, _, refused⟩ | ⟨t, found, taken⟩
  · rw [refused]
    exact .refused handle error _ rfl rfl (log_quiet host e .error .none (refusalFields error))
  · rw [taken]
    exact .taken name ⟨name, completed options, t, handle⟩ rfl rfl (typeFor_ok found).2.1 rfl

theorem outcome_effect (e : Engine S W) (distinct : (Table.keys e.instances).Nodup)
    (c : Call S W) :
    Effect e (c.outcome e) (c.operation.handed? e) c.operation.removes := by
  rcases c with ⟨host, operation⟩
  cases operation with
  | startup app =>
    simp only [Call.outcome, perform]
    rcases startup_cases host e app with
      ⟨error, _, same⟩ | ⟨error, _, _, same⟩ | ⟨h, pool, _, _, same⟩
    · rw [same]
      exact refuse_effect host e error
    · rw [same]
      exact .quiet (Quiet.still rfl)
    · rw [same]
      exact .quiet (Quiet.still rfl)
  | register type =>
    simp only [Call.outcome, perform]
    rcases register_cases host e type with ⟨error, _, same⟩ | ⟨_, same⟩
    · rw [same]
      exact refuse_effect host e error
    · rw [same]
      exact .quiet (Quiet.still rfl)
  | add name type options handle => exact add_effect host e name type options handle
  | openHandler surroundings name type options params =>
    simp only [Call.outcome, perform, Operation.handed?, Operation.removes]
    rcases openHandler_cases host e surroundings name type options params with
      ⟨none, ⟨error, _, same⟩ | ⟨error, _, same⟩⟩ | ⟨handle, ⟨found, _⟩, same⟩
    · rw [none, same]
      exact refuse_effect host e error
    · rw [none, same]
      exact .quiet (Quiet.still rfl)
    · rw [found, same]
      exact add_effect host e name type options handle
  | remove name => exact removed_effect e name distinct _ rfl
  | shutdown => exact removed_effect e "" distinct _ rfl
  | log severity options fields => exact .quiet (log_quiet host e severity options fields)
  | logRaw severity options data => exact .quiet (logRaw_quiet e severity options data)
  | say severity text => exact .quiet (logRaw_quiet e severity .none _)
  | displayBytes data label => exact .quiet (display_quiet e .debug _)
  | displayDocument document label => exact .quiet (display_quiet e .debug _)
  | displayHex data label => exact .quiet (display_quiet e .debug _)
  | resetCounters => exact .quiet (Quiet.still rfl)
  | setInforms informs => exact .quiet (Quiet.still rfl)

/-- Nothing is logged: there are no events, and nothing is counted or remembered. -/
structure Unlogged (e : Engine S W) (o : Outcome S W Answer) : Prop where
  events : o.events = []
  counters : o.engine.counters = e.counters
  informs : o.engine.informs = e.informs
  lastMessage : o.engine.lastMessage = e.lastMessage

theorem add_granted (host : Host) (e : Engine S W) (name type : String) (options : Options)
    (handle : Handle S) (granted : (e.add host name type options handle).answer = .ok ()) :
    Unlogged e (answering .result (e.add host name type options handle)) := by
  rcases add_cases host e name type options handle with ⟨error, _, same⟩ | ⟨t, _, same⟩
  · rw [same] at granted
    cases granted
  · rw [same]
    exact ⟨rfl, rfl, rfl, rfl⟩

theorem outcome_granted {e : Engine S W} (c : Call S W)
    (granted : (c.outcome e).answer = .result (.ok ())) : Unlogged e (c.outcome e) := by
  rcases c with ⟨host, operation⟩
  cases operation with
  | startup app =>
    simp only [Call.outcome, perform] at granted ⊢
    rcases startup_cases host e app with
      ⟨error, _, same⟩ | ⟨error, _, _, same⟩ | ⟨h, pool, _, _, same⟩
    · rw [same] at granted
      cases granted
    · rw [same] at granted
      cases granted
    · rw [same]
      exact ⟨rfl, rfl, rfl, rfl⟩
  | register type =>
    simp only [Call.outcome, perform] at granted ⊢
    rcases register_cases host e type with ⟨error, _, same⟩ | ⟨_, same⟩
    · rw [same] at granted
      cases granted
    · rw [same]
      exact ⟨rfl, rfl, rfl, rfl⟩
  | add name type options handle =>
    exact add_granted host e name type options handle (Answer.result.inj granted)
  | openHandler surroundings name type options params =>
    simp only [Call.outcome, perform] at granted ⊢
    rcases openHandler_cases host e surroundings name type options params with
      ⟨_, ⟨error, _, same⟩ | ⟨error, _, same⟩⟩ | ⟨handle, _, same⟩
    · rw [same] at granted
      cases granted
    · rw [same] at granted
      cases granted
    · rw [same] at granted ⊢
      exact add_granted host e name type options handle (Answer.result.inj granted)
  | _ => cases granted

structure Settled (e next : Engine S W) : Prop where
  maxTypes : next.maxTypes = e.maxTypes
  indented : next.indented = e.indented
  builtins : next.builtins = e.builtins

omit [Handler S] in
theorem Settled.refl (e : Engine S W) : Settled e e := ⟨rfl, rfl, rfl⟩

omit [Handler S] in
theorem Settled.trans {e f g : Engine S W} (first : Settled e f) (second : Settled f g) :
    Settled e g :=
  ⟨second.maxTypes.trans first.maxTypes, second.indented.trans first.indented,
    second.builtins.trans first.builtins⟩

theorem add_settled (host : Host) (e : Engine S W) (name type : String) (options : Options)
    (handle : Handle S) : Settled e (e.add host name type options handle).engine := by
  rcases add_cases host e name type options handle with ⟨error, _, same⟩ | ⟨t, _, same⟩
  · rw [same]
    exact ⟨rfl, rfl, rfl⟩
  · rw [same]
    exact ⟨rfl, rfl, rfl⟩

theorem outcome_settled (e : Engine S W) (c : Call S W) : Settled e (c.outcome e).engine := by
  rcases c with ⟨host, operation⟩
  cases operation with
  | startup app =>
    simp only [Call.outcome, perform]
    rcases startup_cases host e app with
      ⟨error, _, same⟩ | ⟨error, _, _, same⟩ | ⟨h, pool, _, _, same⟩
    · rw [same]
      exact ⟨rfl, rfl, rfl⟩
    · rw [same]
      exact ⟨rfl, rfl, rfl⟩
    · rw [same]
      exact ⟨rfl, rfl, rfl⟩
  | register type =>
    simp only [Call.outcome, perform]
    rcases register_cases host e type with ⟨error, _, same⟩ | ⟨_, same⟩
    · rw [same]
      exact ⟨rfl, rfl, rfl⟩
    · rw [same]
      exact ⟨rfl, rfl, rfl⟩
  | add name type options handle => exact add_settled host e name type options handle
  | openHandler surroundings name type options params =>
    simp only [Call.outcome, perform]
    rcases openHandler_cases host e surroundings name type options params with
      ⟨_, ⟨error, _, same⟩ | ⟨error, _, same⟩⟩ | ⟨handle, _, same⟩
    · rw [same]
      exact ⟨rfl, rfl, rfl⟩
    · rw [same]
      exact Settled.refl e
    · rw [same]
      exact add_settled host e name type options handle
  | _ => exact ⟨rfl, rfl, rfl⟩

theorem run_settled (d : Design S W) (calls : List (Call S W)) : Settled d.engine (d.run calls) :=
  after_invariant (P := Settled d.engine) (fun e c before => before.trans (outcome_settled e c))
    d.engine calls (Settled.refl d.engine)

end Engine

end StructuredLog
