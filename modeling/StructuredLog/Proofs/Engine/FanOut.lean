import StructuredLog.Proofs.Engine.Handles
import StructuredLog.Proofs.OptionBits

/-!
Who gets what of a message. The instances that want its severity get it one after another in the
order in which they were added, each its record and then, where it is asked for, the stack trace;
the first that takes the message gets no trace, and nobody after it gets anything. Then the process
may be asked to end, once, and the caller may be informed, once.
-/

namespace StructuredLog

variable {S W : Type}

/-- An event without the state that the handle was in. -/
def Event.bare : Event S → Event Unit
  | .wrote handle s data => .wrote ⟨handle.id, ()⟩ s data
  | .formatted handle s text => .formatted ⟨handle.id, ()⟩ s text
  | .unlisted handle => .unlisted ⟨handle.id, ()⟩
  | .closed handle => .closed ⟨handle.id, ()⟩
  | .ended termination => .ended termination
  | .informed s count => .informed s count

namespace Engine

open Record (Buffer Pool Fields)
open Text (Bytes)

def listeners (s : Severity) (table : Table (Instance S W)) : List (Instance S W) :=
  (table.map Prod.snd).filter fun i => i.options.contains (.ofSeverity s)

/-- An instance takes a message by a negative answer to its record; `record` gives the record for
the handle with a number of an instance with certain options. -/
def takes [Handler S] (s : Severity) (record : Nat → Options → Bytes) (i : Instance S W) : Bool :=
  i.type.writes && decide ((Handler.write i.handle.state s (record i.handle.id i.options)).1 < 0)

/-- The instances that a message comes to: all up to the first that takes it, and that one. -/
def reached [Handler S] (s : Severity) (record : Nat → Options → Bytes)
    (table : Table (Instance S W)) : List (Instance S W) :=
  let wanting := listeners s table
  wanting.takeWhile (fun i => !takes s record i) ++
    (wanting.dropWhile fun i => !takes s record i).take 1

def getsTrace (call : Options) (s : Severity) (own : Options) : Bool :=
  [.traceStack, .exitZero, .exitNegative, .abort].any call.contains ||
    (own.contains .traceStack && [.emergency, .alert, .critical, .error].contains s)

/-- The lines of a stack trace: the line that begins it, the calls on the stack, and the line that
ends it. -/
def traceLines (frames : List String) : List String :=
  ["===============> begin stack trace <=================="] ++ frames ++
    ["===============> end stack trace <=================="]

theorem enclose_eq (frames : List String) : Stack.enclose frames = traceLines frames := rfl

def share [Handler S] (call : Options) (s : Severity) (record : Nat → Options → Bytes)
    (lines : List String) (i : Instance S W) : List (Event Unit) :=
  (if i.type.writes then [.wrote ⟨i.handle.id, ()⟩ s (record i.handle.id i.options)] else []) ++
    if !takes s record i && i.type.formats && getsTrace call s i.options then
      lines.map (.formatted ⟨i.handle.id, ()⟩ s)
    else []

def endingOptions : List (Options × Termination) :=
  [(.abort, .abort), (.exitNegative, .exit (-1)), (.exitZero, .exit 0)]

def asked (call : Options) : Option Termination :=
  (endingOptions.find? fun entry => call.contains entry.1).map Prod.snd

theorem wantsStack_eq (m : Message) (own : Options) :
    m.wantsStack own = getsTrace m.options m.severity own := by
  have severe : m.severity.atLeast .error =
      [.emergency, .alert, .critical, .error].contains m.severity := by
    cases m.severity <;> rfl
  simp only [Message.wantsStack, getsTrace, Options.wantsTermination_eq, severe, List.any_cons,
    List.any_nil, Bool.or_false, Bool.or_assoc]

theorem termination?_eq (call : Options) : termination? call = asked call := by
  simp only [termination?, asked, endingOptions, List.find?_cons, List.find?_nil]
  cases call.contains .abort <;> cases call.contains .exitNegative <;>
    cases call.contains .exitZero <;> rfl

theorem compose_blank (setting : Setting) (m : Message) (own : Options) (b : Buffer) :
    compose setting m own b = compose setting m own .blank :=
  rfl

def recordFor (setting : Nat → Setting) (m : Message) (id : Nat) (own : Options) : Bytes :=
  Text.encode (compose (setting id) m own .blank).text

def Readable (pool : Pool) : Prop := ∃ b, pool.buffer 1 = .ok b

theorem readable_store {pool : Pool} (readable : Readable pool) (b : Buffer) :
    Readable (pool.store 1 b) := by
  obtain ⟨old, found⟩ := readable
  refine ⟨b, ?_⟩
  cases same : pool.slots with
  | nil =>
    rw [Pool.buffer, same] at found
    cases found
  | cons first rest =>
    simp only [Pool.buffer, Pool.store, same]
    rfl

theorem fill?_readable {pool : Pool} (readable : Readable pool) (change : Buffer → Buffer)
    (text : List Char) (fills : ∀ b, (change b).text = text) :
    ∃ next, fill? pool (some 1) change = some (Text.encode text, next) ∧ Readable next := by
  obtain ⟨b, found⟩ := readable
  refine ⟨pool.store 1 (change b), ?_, readable_store ⟨b, found⟩ _⟩
  simp only [fill?, found, fills]

theorem format_bare [Handler S] (i : Instance S W) (s : Severity) (lines : List String) :
    (i.format s lines).2.map Event.bare = lines.map (.formatted ⟨i.handle.id, ()⟩ s) := by
  induction lines generalizing i with
  | nil => rfl
  | cons text rest ih =>
    have later := ih (i.withState (Handler.format i.handle.state s text).2)
    exact congrArg (Event.formatted ⟨i.handle.id, ()⟩ s text :: ·) later

variable [Handler S]

/-- The visit of an instance that wants a message, with a usable buffer: the instance gets its
share, the walk ends where the message is taken, and the buffer stays usable. -/
theorem deliver_share (setting : Nat → Setting) (lines : List String) (m : Message) {pool : Pool}
    (readable : Readable pool) (i : Instance S W)
    (wants : i.options.contains (.ofSeverity m.severity) = true) :
    let v := deliver setting (some 1) lines m pool i
    v.stops = takes m.severity (recordFor setting m) i ∧ Readable v.carried ∧
      v.events.map Event.bare = share m.options m.severity (recordFor setting m) lines i := by
  have listens : i.options.ignores m.severity = false := by
    rw [Options.ignores, wants]
    rfl
  by_cases writes : i.type.writes = true
  · obtain ⟨next, filled, stays⟩ := fill?_readable readable
      (compose (setting i.handle.id) m i.options) _
      (fun b => congrArg Buffer.text (compose_blank (setting i.handle.id) m i.options b))
    have offered : offer setting (some 1) m pool i =
        ⟨next, (i.write m.severity (recordFor setting m i.handle.id i.options)).2,
          [.wrote i.handle m.severity (recordFor setting m i.handle.id i.options)],
          takes m.severity (recordFor setting m) i⟩ := by
      unfold offer
      rw [if_pos writes, filled]
      simp only [takes, writes, Bool.true_and]
      rfl
    -- Who takes the message sees no trace of it; anyone else may, whatever the answer was.
    by_cases taken : takes m.severity (recordFor setting m) i = true
    · simp only [deliver, listens, offered, taken, Bool.false_eq_true, ↓reduceIte]
      refine ⟨trivial, stays, ?_⟩
      simp only [share, writes, taken, ↓reduceIte, Bool.not_true, Bool.false_and,
        Bool.false_eq_true, List.append_nil, List.map_cons, List.map_nil, Event.bare]
    · rw [Bool.not_eq_true] at taken
      simp only [deliver, listens, offered, taken, Bool.false_eq_true, ↓reduceIte]
      have same := write_alike i m.severity (recordFor setting m i.handle.id i.options)
      have shown :=
        format_bare (i.write m.severity (recordFor setting m i.handle.id i.options)).2 m.severity
          lines
      rw [same.id] at shown
      simp only [trace, same.type, same.options, wantsStack_eq, share, writes, taken,
        Bool.not_false, Bool.true_and, ↓reduceIte]
      split
      · refine ⟨rfl, stays, ?_⟩
        simp only [List.map_append, List.map_cons, List.map_nil, Event.bare, shown]
      · exact ⟨rfl, stays, rfl⟩
  · rw [Bool.not_eq_true] at writes
    have skipped : offer setting (some 1) m pool i = .skip pool i := by
      unfold offer
      rw [if_neg (by simp only [writes, Bool.false_eq_true, not_false_eq_true])]
    have kept : takes m.severity (recordFor setting m) i = false := by
      rw [takes, writes, Bool.false_and]
    have shown := format_bare i m.severity lines
    simp only [deliver, listens, skipped, Visit.skip, trace, wantsStack_eq, share, writes, kept,
      Bool.not_false, Bool.true_and, Bool.false_eq_true, ↓reduceIte, List.nil_append]
    split
    · exact ⟨rfl, readable, shown⟩
    · exact ⟨rfl, readable, rfl⟩

theorem reached_cons (s : Severity) (record : Nat → Options → Bytes) (name : String)
    (i : Instance S W) (rest : Table (Instance S W)) :
    reached s record ((name, i) :: rest) =
      if i.options.contains (.ofSeverity s) then
        if takes s record i then [i] else i :: reached s record rest
      else reached s record rest := by
  unfold reached listeners
  by_cases wants : i.options.contains (.ofSeverity s) = true
  · simp only [List.map_cons, List.filter_cons, wants, ↓reduceIte, List.takeWhile_cons,
      List.dropWhile_cons]
    cases takes s record i <;> rfl
  · simp only [List.map_cons, List.filter_cons, wants, Bool.false_eq_true, ↓reduceIte]

theorem walk_deliver (setting : Nat → Setting) (lines : List String) (m : Message) {pool : Pool}
    (readable : Readable pool) (table : Table (Instance S W)) :
    (walk (deliver setting (some 1) lines m) pool table).events.map Event.bare =
      (reached m.severity (recordFor setting m) table).flatMap
        (share m.options m.severity (recordFor setting m) lines) := by
  induction table generalizing pool with
  | nil => rfl
  | cons entry rest ih =>
    rcases entry with ⟨name, i⟩
    rw [reached_cons]
    by_cases wants : i.options.contains (.ofSeverity m.severity) = true
    · obtain ⟨stops, stays, events⟩ := deliver_share setting lines m readable i wants
      by_cases taken : takes m.severity (recordFor setting m) i = true
      · simp only [walk, stops, wants, taken, ↓reduceIte, List.flatMap_cons, List.flatMap_nil,
          List.append_nil]
        exact events
      · rw [Bool.not_eq_true] at taken
        simp only [walk, stops, wants, taken, Bool.false_eq_true, ↓reduceIte, List.flatMap_cons,
          List.map_append, events, ih stays]
    · have skipped : deliver setting (some 1) lines m pool i = .skip pool i := by
        rw [deliver, if_pos]
        simp only [Options.ignores, wants, Bool.not_false]
      simp only [walk, skipped, Visit.skip, wants, Bool.false_eq_true, ↓reduceIte,
        List.nil_append, ih readable]

theorem spread_shares {e : Engine S W} (sound : Sound e) (host : Host) (m : Message) :
    (e.spread host m).events.map Event.bare =
      (reached m.severity (recordFor (e.setting host) m) e.instances).flatMap
        (share m.options m.severity (recordFor (e.setting host) m)
          (traceLines host.frames)) := by
  -- An engine without instances may never have been started, and then it has no buffer.
  by_cases none : e.instances = []
  · simp only [spread, none]
    rfl
  · obtain ⟨held, readable⟩ := sound.buffer (sound.running none)
    simp only [spread, held]
    rw [enclose_eq]
    exact walk_deliver (e.setting host) _ m readable e.instances

/-- Everything that one message sets off, after any run: the instances that it comes to get their
shares in the order in which they were added, and nothing else is called; then the process is asked
to end at most once, and the caller is told the new count at most once. -/
theorem log_fan_out (d : Design S W) (calls : List (Call S W)) (host : Host) (s : Severity)
    (options : Options) (fields : Fields) :
    let e := d.run calls
    let record := recordFor (e.setting host) ⟨s, options, fields⟩
    e.ids.Sublist (takenIn d.engine calls) ∧
      (e.log host s options fields).2.map Event.bare =
        (reached s record e.instances).flatMap
            (share options s record (traceLines host.frames)) ++
          ((asked options).map Event.ended).toList ++
          if e.informs then [.informed s (e.counters.count s + 1)] else [] := by
  intro e record
  have sound : Sound e := run_sound d calls
  have ordered : e.ids.Sublist (takenIn d.engine calls) := by
    have order := ids_order d.engine calls (new_sound d)
    exact order
  refine ⟨ordered, ?_⟩
  have counted : (e.counters.increment s).count s = e.counters.count s + 1 := by
    rw [Counters.count_increment, if_pos rfl]
  have walked : (e.spread host ⟨s, options, fields⟩).events.map Event.bare =
      (reached s record e.instances).flatMap
        (share options s record (traceLines host.frames)) :=
    spread_shares sound host ⟨s, options, fields⟩
  have ended : (endings options : List (Event S)).map Event.bare =
      ((asked options).map Event.ended).toList := by
    rw [endings, termination?_eq]
    cases asked options <;> rfl
  have informed : (if e.informs then [Event.informed s (e.counters.count s + 1)] else
      ([] : List (Event S))).map Event.bare =
        if e.informs then [.informed s (e.counters.count s + 1)] else [] := by
    split <;> rfl
  simp only [log, List.map_append, walked, ended, counted, informed]

/-- An instance that wants traces is shown one for an error, with a line for every call on the
stack; an instance that does not want them is shown none. -/
example :
    let calls : List (Call Sink Unit) :=
      [.startup ⟨"app", "1", "program"⟩, .add "a" "memory" .traceStack ⟨1, .fixed 0⟩,
        .add "b" "memory" .none ⟨2, .fixed 0⟩].map (Call.mk bareHost)
    let host := { bareHost with frames := ["main", "start"] }
    let shown : Event Sink → Option (Nat × String)
      | .formatted handle _ text => some (handle.id, text)
      | _ => none
    ((memoryDesign.run calls).log host .error .none []).2.filterMap shown =
      [(1, "===============> begin stack trace <=================="), (1, "main"), (1, "start"),
        (1, "===============> end stack trace <==================")] := by
  rfl

end Engine

end StructuredLog
