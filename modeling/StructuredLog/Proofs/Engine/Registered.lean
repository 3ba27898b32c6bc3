import StructuredLog.Proofs.Engine.RecordContent

/-!
What is registered and what is listed. There are never more types than the engine has room for, and
an instance stands under its own name, wants some severity, and has the type that is registered
under the name of its type; for types only go when all instances do. With what holds of the buffer,
no record that is due is left out.
-/

namespace StructuredLog.Engine

open Record (Fields)

variable {S W : Type}

structure Placed (types : Table (HandlerType S W)) (entry : String × Instance S W) : Prop where
  named : entry.2.name = entry.1
  wanting : ∃ s, entry.2.options.contains (.ofSeverity s) = true
  typed : Table.get? entry.2.type.name types = some entry.2.type

structure Registered (e : Engine S W) : Prop where
  named : ∀ name t, Table.get? name e.types = some t → t.name = name
  room : e.types.length ≤ e.maxTypes
  placed : ∀ entry ∈ e.instances, Placed e.types entry

theorem completed_severity (options : Options) :
    ∃ s, (completed options).contains (.ofSeverity s) = true := by
  apply Options.severity_of_intersects
  unfold completed
  split
  · next meets => exact meets
  · rw [Options.intersects_iff]
    exact ⟨0, (Options.has_union _ _ 0).mpr (.inr (by decide)), by decide⟩

theorem noRoom?_none {maxTypes taken : Nat} {types : Table (HandlerType S W)}
    {incoming : List (HandlerType S W)} (fits : noRoom? maxTypes types taken incoming = none) :
    (∀ t ∈ incoming, t.name ∉ Table.keys types) ∧
      (taken ≤ maxTypes → taken + incoming.length ≤ maxTypes) := by
  induction incoming generalizing taken with
  | nil =>
    refine ⟨?_, fun room => room⟩
    intro t member
    cases member
  | cons t rest ih =>
    unfold noRoom? at fits
    split at fits
    · cases fits
    · next new =>
      split at fits
      · cases fits
      · next room =>
        obtain ⟨others, enough⟩ := ih fits
        refine ⟨List.forall_mem_cons.mpr ⟨?_, others⟩, ?_⟩
        · intro member
          exact new ((Table.has_eq_true t.name types).mpr member)
        · intro _
          have later := enough (by omega)
          rw [List.length_cons]
          omega

theorem enroll_length (types : Table (HandlerType S W)) (incoming : List (HandlerType S W)) :
    (enroll types incoming).length ≤ types.length + incoming.length := by
  induction incoming generalizing types with
  | nil => exact Nat.le_refl _
  | cons t rest ih =>
    have later := ih (Table.put t.name t types)
    have first := Table.length_put_le t.name t types
    simp only [enroll, List.foldl_cons, List.length_cons] at later ⊢
    omega

theorem enroll_other (types : Table (HandlerType S W)) {incoming : List (HandlerType S W)}
    {name : String} (other : ∀ t ∈ incoming, name ≠ t.name) :
    Table.get? name (enroll types incoming) = Table.get? name types := by
  induction incoming generalizing types with
  | nil => rfl
  | cons t rest ih =>
    rw [List.forall_mem_cons] at other
    exact (ih (Table.put t.name t types) other.2).trans (Table.get?_put_other t types other.1)

theorem enroll_named {types : Table (HandlerType S W)}
    (named : ∀ name t, Table.get? name types = some t → t.name = name)
    (incoming : List (HandlerType S W)) :
    ∀ name t, Table.get? name (enroll types incoming) = some t → t.name = name := by
  induction incoming generalizing types with
  | nil => exact named
  | cons u rest ih =>
    apply ih
    intro name t found
    by_cases same : name = u.name
    · rw [same, Table.get?_put_self] at found
      rw [same, Option.some.inj found]
    · rw [Table.get?_put_other u types same] at found
      exact named name t found

theorem Registered.enrolled {e next : Engine S W} (registered : Registered e)
    {incoming : List (HandlerType S W)} (fits : e.refusal? incoming = none)
    (types : next.types = enroll e.types incoming) (instances : next.instances = e.instances)
    (maxTypes : next.maxTypes = e.maxTypes) : Registered next := by
  obtain ⟨new, enough⟩ := noRoom?_none fits
  refine ⟨?_, ?_, ?_⟩
  · rw [types]
    exact enroll_named registered.named incoming
  · rw [types, maxTypes]
    exact (enroll_length e.types incoming).trans (enough registered.room)
  · rw [types, instances]
    intro entry member
    have placed := registered.placed entry member
    refine ⟨placed.named, placed.wanting, ?_⟩
    rw [enroll_other, placed.typed]
    intro t incomes same
    apply new t incomes
    exact Table.mem_keys_iff.mpr ⟨_, same ▸ placed.typed⟩

theorem Registered.of_quiet {e next : Engine S W} {events : List (Event S)}
    (registered : Registered e) (quiet : Quiet e next events) (types : next.types = e.types)
    (maxTypes : next.maxTypes = e.maxTypes) : Registered next := by
  refine ⟨?_, ?_, ?_⟩
  · rw [types]
    exact registered.named
  · rw [types, maxTypes]
    exact registered.room
  · rw [types]
    apply quiet.holds ?_ registered.placed
    rintro name i j ⟨state, rfl⟩
    exact propext ⟨fun h => ⟨h.named, h.wanting, h.typed⟩, fun h => ⟨h.named, h.wanting, h.typed⟩⟩

theorem new_registered (d : Design S W) : Registered d.engine where
  named := by
    intro name t found
    cases found
  room := Nat.zero_le _
  placed := by
    intro entry member
    cases member

theorem remove_registered {e : Engine S W} (registered : Registered e) (name : String) :
    Registered (e.remove name).engine := by
  have fewer : ∀ entry ∈ (e.remove name).engine.instances, entry ∈ e.instances := by
    intro entry member
    unfold remove at member
    by_cases all : name = ""
    · simp only [all, ↓reduceIte] at member
      cases member
    · simp only [all, ↓reduceIte] at member
      exact (Table.erase_sublist name e.instances).subset member
  exact ⟨registered.named, registered.room,
    fun entry member => registered.placed entry (fewer entry member)⟩

variable [Handler S]

theorem refuse_registered (host : Host) {e : Engine S W} (registered : Registered e)
    (error : Error) (before : List (Event S)) :
    Registered (e.refuse host error before).engine :=
  registered.of_quiet (log_quiet host e .error .none (refusalFields error)) rfl rfl

theorem startup_registered (host : Host) {e : Engine S W} (registered : Registered e)
    (app : AppInfo) : Registered (e.startup host app).engine := by
  rcases startup_cases host e app with
    ⟨error, _, same⟩ | ⟨error, _, _, same⟩ | ⟨h, pool, fits, _, same⟩
  · rw [same]
    exact refuse_registered host registered error []
  · rw [same]
    exact ⟨registered.named, registered.room, registered.placed⟩
  · rw [same]
    exact registered.enrolled fits rfl rfl rfl

theorem register_registered (host : Host) {e : Engine S W} (registered : Registered e)
    (t : HandlerType S W) : Registered (e.register host t).engine := by
  rcases register_cases host e t with ⟨error, _, same⟩ | ⟨fits, same⟩
  · rw [same]
    exact refuse_registered host registered error []
  · rw [same]
    exact registered.enrolled fits rfl rfl rfl

theorem add_registered (host : Host) {e : Engine S W} (registered : Registered e)
    (name type : String) (options : Options) (handle : Handle S) :
    Registered (e.add host name type options handle).engine := by
  rcases add_cases host e name type options handle with ⟨error, _, same⟩ | ⟨t, found, same⟩
  · rw [same]
    exact refuse_registered host registered error [.closed handle]
  · obtain ⟨_, _, known⟩ := typeFor_ok found
    have typed : Table.get? t.name e.types = some t := by
      rw [registered.named type t known]
      exact known
    rw [same]
    refine ⟨registered.named, registered.room, ?_⟩
    intro entry member
    rcases List.mem_append.mp member with old | new
    · exact registered.placed entry old
    · rw [List.mem_singleton.mp new]
      exact ⟨rfl, completed_severity options, typed⟩

theorem openHandler_registered (host : Host) {e : Engine S W} (registered : Registered e)
    (surroundings : W) (name type : String) (options : Options) (params : Json.Value) :
    Registered (e.openHandler host surroundings name type options params).1.engine := by
  rcases openHandler_cases host e surroundings name type options params with
    ⟨_, ⟨error, _, same⟩ | ⟨error, _, same⟩⟩ | ⟨handle, _, same⟩
  · rw [same]
    exact refuse_registered host registered error []
  · rw [same]
    exact registered
  · rw [same]
    exact add_registered host registered name type options handle

omit [Handler S] in
theorem shutdown_registered (e : Engine S W) : Registered e.shutdown.engine where
  named := by
    intro name t found
    cases found
  room := Nat.zero_le _
  placed := by
    intro entry member
    cases member

theorem outcome_registered (e : Engine S W) (c : Call S W) (registered : Registered e) :
    Registered (c.outcome e).engine := by
  rcases c with ⟨host, operation⟩
  have displayed : ∀ lines, Registered (e.display .debug lines).1 := by
    intro lines
    exact registered.of_quiet (display_quiet e .debug lines) rfl rfl
  cases operation with
  | startup app => exact startup_registered host registered app
  | register type => exact register_registered host registered type
  | add name type options handle => exact add_registered host registered name type options handle
  | openHandler surroundings name type options params =>
    exact openHandler_registered host registered surroundings name type options params
  | remove name => exact remove_registered registered name
  | shutdown => exact shutdown_registered e
  | log severity options fields =>
    exact registered.of_quiet (log_quiet host e severity options fields) rfl rfl
  | logRaw severity options data =>
    exact registered.of_quiet (logRaw_quiet e severity options data) rfl rfl
  | say severity text => exact registered.of_quiet (logRaw_quiet e severity .none _) rfl rfl
  | displayBytes data label => exact displayed _
  | displayDocument document label => exact displayed _
  | displayHex data label => exact displayed _
  | resetCounters => exact ⟨registered.named, registered.room, registered.placed⟩
  | setInforms informs => exact ⟨registered.named, registered.room, registered.placed⟩

theorem run_registered (d : Design S W) (calls : List (Call S W)) : Registered (d.run calls) :=
  after_invariant outcome_registered d.engine calls (new_registered d)

/-- What holds of an engine with room for so many types, at any time. -/
structure Orderly (maxTypes : Nat) (e : Engine S W) : Prop where
  running : e.instances ≠ [] → e.isStarted = true
  buffered : e.isStarted = true → ∃ h b, e.slot = some h ∧ e.pool.buffer h = .ok b
  single : e.pool.size ≤ 1
  room : e.types.length ≤ maxTypes
  placed : ∀ entry ∈ e.instances, Placed e.types entry

/-- Any run leaves an engine in order, and so every record that is due is made: whoever a message
comes to gets its record, if records are meant for it. -/
theorem run_orderly (d : Design S W) (calls : List (Call S W)) (host : Host) (s : Severity)
    (options : Options) (fields : Fields) :
    let e := d.run calls
    let record := recordFor (e.setting host) ⟨s, options, fields⟩
    Orderly d.maxTypes e ∧
      ∀ i ∈ reached s record e.instances, i.type.writes = true →
        (i.handle.id, s, record i.handle.id i.options) ∈
          (e.log host s options fields).2.filterMap Event.written? := by
  intro e record
  have sound : Sound e := run_sound d calls
  have registered : Registered e := run_registered d calls
  have maxTypes : e.maxTypes = d.maxTypes := (run_settled d calls).maxTypes
  refine ⟨⟨sound.running, ?_, sound.slot.size_le, ?_, registered.placed⟩, ?_⟩
  · intro started
    obtain ⟨held, b, found⟩ := sound.buffer started
    exact ⟨1, b, held, found⟩
  · rw [← maxTypes]
    exact registered.room
  · intro i comes writes
    rw [log_written sound host s options fields]
    exact List.mem_map.mpr ⟨i, List.mem_filter.mpr ⟨comes, writes⟩, rfl⟩

/-- An engine that was ended and started again hands a record to its only instance. -/
theorem restarted_delivers :
    let calls : List (Call Sink Unit) :=
      [.startup ⟨"app", "1", "program"⟩, .shutdown, .startup ⟨"other", "2", "program"⟩,
        .add "m" "memory" .none ⟨1, .memory (.new false)⟩].map (Call.mk bareHost)
    let e := memoryDesign.run calls
    let record := recordFor (e.setting bareHost) ⟨.info, .none, [("msg", .str "hello")]⟩
    let i : Instance Sink Unit :=
      ⟨"m", .allSeverities, .new "memory", ⟨1, .memory (.new false)⟩⟩
    Orderly 1 e ∧ i ∈ reached .info record e.instances ∧ i.type.writes = true ∧
      (1, .info, record 1 .allSeverities) ∈
        (e.log bareHost .info .none [("msg", .str "hello")]).2.filterMap Event.written? := by
  intro calls e record i
  have order := run_orderly memoryDesign calls bareHost .info .none [("msg", .str "hello")]
  have comes : i ∈ reached .info record e.instances := List.mem_cons_self
  exact ⟨order.1, comes, rfl, order.2 i comes rfl⟩

end StructuredLog.Engine
