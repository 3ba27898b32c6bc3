import StructuredLog.Proofs.Engine.Registered
import StructuredLog.Sink.Surroundings

/-!
When an engine can be started. The types that it starts with have to be new and there has to be room
for all of them, and nothing else stands in the way: the buffer that was handed out at the first
start serves all later ones. Once an engine was ended only the room counts.
-/

namespace StructuredLog.Engine

variable {S W : Type}

structure Fits (maxTypes : Nat) (taken names : List String) : Prop where
  new : ∀ name ∈ names, name ∉ taken
  room : taken.length + names.length ≤ maxTypes

/-- Why types with certain names cannot be added one after another: the first that is there already,
or that no longer fits in, is at fault. -/
inductive Hinders (maxTypes : Nat) (taken names : List String) : Error → Prop where
  | there {before after : List String} {name : String} (split : names = before ++ name :: after)
      (earlier : Fits maxTypes taken before) (present : name ∈ taken) :
      Hinders maxTypes taken names (.typeExists name)
  | full {before after : List String} {name : String} (split : names = before ++ name :: after)
      (earlier : Fits maxTypes taken before) (new : name ∉ taken)
      (full : maxTypes ≤ taken.length + before.length) :
      Hinders maxTypes taken names (.typeTableFull maxTypes name)

theorem Hinders.not_fits {maxTypes : Nat} {taken names : List String} {error : Error}
    (hinders : Hinders maxTypes taken names error) : ¬Fits maxTypes taken names := by
  intro fits
  cases hinders with
  | there split earlier present =>
    refine fits.new _ ?_ present
    rw [split]
    exact List.mem_append_cons_self
  | full split earlier new full =>
    have room := fits.room
    rw [split, List.length_append, List.length_cons] at room
    omega

theorem Fits.snoc {maxTypes : Nat} {taken names : List String} {name : String}
    (fits : Fits maxTypes taken names) (new : name ∉ taken)
    (room : taken.length + names.length < maxTypes) : Fits maxTypes taken (names ++ [name]) := by
  refine ⟨?_, ?_⟩
  · intro other member
    rcases List.mem_append.mp member with before | last
    · exact fits.new other before
    · rw [List.mem_singleton.mp last]
      exact new
  · rw [List.length_append, List.length_singleton]
    omega

def namesOf (types : List (HandlerType S W)) : List String := types.map HandlerType.name

/-- What is found to be wrong with types of which the `earlier` ones are in order. -/
theorem noRoom?_hinders {maxTypes : Nat} {types : Table (HandlerType S W)}
    {earlier incoming : List (HandlerType S W)} {error : Error}
    (fits : Fits maxTypes (Table.keys types) (namesOf earlier))
    (wrong : noRoom? maxTypes types (types.length + earlier.length) incoming = some error) :
    Hinders maxTypes (Table.keys types) (namesOf (earlier ++ incoming)) error := by
  have size : (Table.keys types).length = types.length := List.length_map _
  have number : (namesOf earlier).length = earlier.length := List.length_map _
  induction incoming generalizing earlier with
  | nil => cases wrong
  | cons t rest ih =>
    have split : namesOf (earlier ++ t :: rest) = namesOf earlier ++ t.name :: namesOf rest :=
      List.map_append
    unfold noRoom? at wrong
    split at wrong
    · next present =>
      cases wrong
      exact .there split fits ((Table.has_eq_true t.name types).mp present)
    · next absent =>
      rw [Table.has_eq_true] at absent
      split at wrong
      · next full =>
        cases wrong
        refine .full split fits absent ?_
        omega
      · next room =>
        have more : namesOf (earlier ++ [t]) = namesOf earlier ++ [t.name] := List.map_append
        have longer : Fits maxTypes (Table.keys types) (namesOf (earlier ++ [t])) := by
          rw [more]
          apply fits.snoc absent
          omega
        have length : (earlier ++ [t]).length = earlier.length + 1 := List.length_append
        rw [Nat.add_assoc, ← length] at wrong
        have later := ih longer wrong (List.length_map _)
        rw [List.append_assoc] at later
        exact later

theorem enroll_new {types : Table (HandlerType S W)} {incoming : List (HandlerType S W)}
    (new : ∀ name ∈ namesOf incoming, name ∉ Table.keys types)
    (distinct : (namesOf incoming).Nodup) :
    enroll types incoming = types ++ incoming.map fun t => (t.name, t) := by
  induction incoming generalizing types with
  | nil => exact (List.append_nil types).symm
  | cons t rest ih =>
    rw [namesOf, List.map_cons, List.forall_mem_cons] at new
    rw [namesOf, List.map_cons, List.nodup_cons] at distinct
    have put := Table.put_absent t.name t types new.1
    have others : ∀ name ∈ namesOf rest, name ∉ Table.keys (types ++ [(t.name, t)]) := by
      intro name member present
      rw [Table.keys, List.map_append, List.mem_append] at present
      rcases present with old | own
      · exact new.2 name member old
      · rw [List.mem_singleton.mp own] at member
        exact distinct.1 member
    have later := ih others distinct.2
    rw [List.append_assoc] at later
    rw [enroll, List.foldl_cons, put]
    exact later

theorem refusal?_some {e : Engine S W} (registered : Registered e)
    {incoming : List (HandlerType S W)} {error : Error}
    (refused : e.refusal? incoming = some error) :
    Hinders e.maxTypes (Table.keys e.types) (namesOf incoming) error := by
  have size : (Table.keys e.types).length = e.types.length := List.length_map _
  have none : Fits e.maxTypes (Table.keys e.types) (namesOf ([] : List (HandlerType S W))) := by
    refine ⟨List.forall_mem_nil _, ?_⟩
    rw [size]
    exact registered.room
  exact noRoom?_hinders none refused

theorem refusal?_none {e : Engine S W} (registered : Registered e)
    {incoming : List (HandlerType S W)} (granted : e.refusal? incoming = none) :
    Fits e.maxTypes (Table.keys e.types) (namesOf incoming) := by
  obtain ⟨new, room⟩ := noRoom?_none granted
  refine ⟨List.forall_mem_map.mpr new, ?_⟩
  rw [Table.keys, List.length_map, namesOf, List.length_map]
  exact room registered.room

inductive StartDecided (e : Engine S W) : Except Error Unit → Prop where
  | running (app : AppInfo) (same : e.app = some app) :
      StartDecided e (.error (.alreadyStarted app.name))
  | hindered {error : Error} (stopped : e.app = none)
      (hinders : Hinders e.maxTypes (Table.keys e.types) (namesOf e.builtins) error) :
      StartDecided e (.error error)
  | granted (stopped : e.app = none)
      (fits : Fits e.maxTypes (Table.keys e.types) (namesOf e.builtins)) :
      StartDecided e (.ok ())

variable [Handler S] {e : Engine S W}

theorem startup_decided (sound : Sound e) (registered : Registered e) (host : Host)
    (app : AppInfo) : StartDecided e (e.startup host app).answer := by
  -- There is always a buffer, so only the engine itself and its types stand in the way.
  obtain ⟨pool, b, given, -⟩ := withSlot_ok sound
  unfold startup
  cases running : e.app with
  | some started => exact .running started running
  | none =>
    cases refused : e.refusal? e.builtins with
    | some error => exact .hindered running (refusal?_some registered refused)
    | none =>
      simp only [given]
      exact .granted running (refusal?_none registered refused)

theorem startup_ok_iff (sound : Sound e) (registered : Registered e) (host : Host)
    (app : AppInfo) :
    (e.startup host app).answer = .ok () ↔
      e.isStarted = false ∧ Fits e.maxTypes (Table.keys e.types) (namesOf e.builtins) := by
  have decided := startup_decided sound registered host app
  generalize (e.startup host app).answer = answer at decided ⊢
  cases decided with
  | running started same => simp [isStarted, same]
  | hindered stopped hinders => simp [hinders.not_fits]
  | granted stopped fits => simp [isStarted, stopped, fits]

theorem startup_running_iff (sound : Sound e) (registered : Registered e) (host : Host)
    (app : AppInfo) :
    (∃ name, (e.startup host app).answer = .error (.alreadyStarted name)) ↔
      e.isStarted = true := by
  have decided := startup_decided sound registered host app
  generalize (e.startup host app).answer = answer at decided ⊢
  cases decided with
  | running started same => simp [isStarted, same]
  | hindered stopped hinders => cases hinders <;> simp [isStarted, stopped]
  | granted stopped fits => simp [isStarted, stopped]

/-- What is at fault when an engine that was not started cannot be started. -/
theorem startup_hindered (sound : Sound e) (registered : Registered e) {host : Host}
    {app : AppInfo} {error : Error} (fails : (e.startup host app).answer = .error error)
    (stopped : e.isStarted = false) :
    Hinders e.maxTypes (Table.keys e.types) (namesOf e.builtins) error := by
  have decided := startup_decided sound registered host app
  rw [fails] at decided
  cases decided with
  | running started same =>
    rw [isStarted, same] at stopped
    cases stopped
  | hindered stopped hinders => exact hinders

theorem startup_not_exhausted (sound : Sound e) (registered : Registered e) (host : Host)
    (app : AppInfo) (capacity : Nat) :
    (e.startup host app).answer ≠ .error (.poolExhausted capacity) := by
  intro fails
  have decided := startup_decided sound registered host app
  rw [fails] at decided
  cases decided with
  | hindered stopped hinders => cases hinders

theorem startup_appends (sound : Sound e) (registered : Registered e) {host : Host} {app : AppInfo}
    (distinct : (namesOf e.builtins).Nodup) (done : (e.startup host app).answer = .ok ()) :
    (e.startup host app).engine.types = e.types ++ e.builtins.map fun t => (t.name, t) := by
  have fits := ((startup_ok_iff sound registered host app).mp done).2
  have types : (e.startup host app).engine.types = enroll e.types e.builtins := by
    rcases startup_cases host e app with
      ⟨error, -, same⟩ | ⟨error, _, -, same⟩ | ⟨h, pool, -, -, same⟩
    · rw [same] at done
      cases done
    · rw [same] at done
      cases done
    · rw [same]
  rw [types, enroll_new fits.new distinct]

/-- An engine that was ended can be started if all the types that it starts with fit in. -/
theorem restart_ok_iff (sound : Sound e) (host : Host) (app : AppInfo) :
    (e.shutdown.engine.startup host app).answer = .ok () ↔
      e.builtins.length ≤ e.maxTypes := by
  have size : (namesOf e.builtins).length = e.builtins.length := List.length_map _
  rw [startup_ok_iff (shutdown_sound sound) (shutdown_registered e)]
  constructor
  · intro ⟨_, fits⟩
    have room : 0 + (namesOf e.builtins).length ≤ e.maxTypes := fits.room
    omega
  · intro room
    refine ⟨rfl, fun _ _ => List.not_mem_nil, ?_⟩
    show 0 + (namesOf e.builtins).length ≤ e.maxTypes
    omega

/-- What a start comes to after any run of an engine that starts with the three usual types. -/
theorem startup_outcome (d : Design S W) (named : namesOf d.builtins = ["stdout", "file", "udp"])
    (calls : List (Call S W)) (host : Host) (app : AppInfo) :
    let e := d.run calls
    let o := e.startup host app
    let ended := e.shutdown.engine
    ((∃ name, o.answer = .error (.alreadyStarted name)) ↔ e.isStarted = true) ∧
      (o.answer = .ok () ↔ e.isStarted = false ∧
        (∀ name ∈ ["stdout", "file", "udp"], name ∉ Table.keys e.types) ∧
        e.types.length + 3 ≤ d.maxTypes) ∧
      (o.answer = .ok () → o.engine.types = e.types ++ d.builtins.map fun t => (t.name, t)) ∧
      (∀ error, o.answer = .error error → e.isStarted = false →
        Hinders d.maxTypes (Table.keys e.types) ["stdout", "file", "udp"] error) ∧
      (∀ capacity, o.answer ≠ .error (.poolExhausted capacity)) ∧
      ended.types = [] ∧ ended.instances = [] ∧
      ((ended.startup host app).answer = .ok () ↔ 3 ≤ d.maxTypes) := by
  intro e o ended
  have sound : Sound e := run_sound d calls
  have registered : Registered e := run_registered d calls
  obtain ⟨settled, -, same⟩ : Settled d.engine e := run_settled d calls
  have most : e.maxTypes = d.maxTypes := settled
  have builtins : e.builtins = d.builtins := same
  have names : namesOf e.builtins = ["stdout", "file", "udp"] := builtins ▸ named
  have size : (Table.keys e.types).length = e.types.length := List.length_map _
  have three : e.builtins.length = 3 := by
    rw [← List.length_map HandlerType.name]
    exact congrArg List.length names
  refine ⟨startup_running_iff sound registered host app, ?_, ?_, ?_,
    startup_not_exhausted sound registered host app, rfl, rfl, ?_⟩
  · rw [startup_ok_iff sound registered host app, names, most]
    constructor
    · exact fun ⟨stopped, fits⟩ => ⟨stopped, fits.new, size ▸ fits.room⟩
    · exact fun ⟨stopped, new, room⟩ => ⟨stopped, new, size.symm ▸ room⟩
  · intro done
    rw [startup_appends sound registered (names ▸ by decide) done, builtins]
  · intro error fails stopped
    rw [← names, ← most]
    exact startup_hindered sound registered fails stopped
  · rw [restart_ok_iff sound host app, three, most]

/-- Room for four types, one of which was put in the place of a usual one. -/
def occupied : List (Call Sink Surroundings) :=
  [.startup ⟨"app", "1", "program"⟩, .register (.new "memory"), .shutdown,
    .register (.new "file")].map (Call.mk bareHost)

theorem occupied_startup :
    let d : Design Sink Surroundings := ⟨bareHost, 4, false, Sink.builtinTypes⟩
    let app : AppInfo := ⟨"app", "1", "program"⟩
    let e := d.run occupied
    namesOf d.builtins = ["stdout", "file", "udp"] ∧
      (e.startup bareHost app).answer = .error (.typeExists "file") ∧
      Hinders 4 ["file"] ["stdout", "file", "udp"] (.typeExists "file") ∧
      (e.shutdown.engine.startup bareHost app).answer = .ok () := by
  intro d app e
  have named : namesOf d.builtins = ["stdout", "file", "udp"] := rfl
  have refused : (e.startup bareHost app).answer = .error (.typeExists "file") := rfl
  have outcome := startup_outcome d named occupied bareHost app
  obtain ⟨-, -, -, hindered, -, -, -, again⟩ := outcome
  exact ⟨named, refused, hindered _ refused rfl, again.mpr (by decide)⟩

end StructuredLog.Engine
