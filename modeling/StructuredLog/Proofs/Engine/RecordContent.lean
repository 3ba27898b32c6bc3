import StructuredLog.Proofs.Engine.FanOut
import StructuredLog.Proofs.Record.Conversion
import StructuredLog.Proofs.Record.RoundTrip
import StructuredLog.Proofs.Text.Utf8

/-!
What a record of a message holds. All instances and all messages share one buffer, but a record
depends on nothing that was in it: it is made of the fields of its message, the options of the
instance that it is for, and who writes it.
-/

namespace StructuredLog

variable {S W S' W' : Type}

def Event.written? : Event S → Option (Nat × Severity × Text.Bytes)
  | .wrote handle s data => some (handle.id, s, data)
  | _ => none

theorem written?_bare (event : Event S) : event.bare.written? = event.written? := by
  cases event <;> rfl

def Record.FieldValue.scalar : Record.FieldValue → Record.Scalar
  | .str s => .string s
  | .int i => .integer i
  | .real x => .real x
  | .null => .null
  | .json v => .string (Record.inSingleQuotes v)

def Json.DocumentBytes (v : Json.Tree) (data : Text.Bytes) : Prop :=
  ∃ text, Text.encode text = data ∧ Json.Document v text

namespace Engine

open Record (Buffer Fields Scalar MemberShows)
open Json (DocumentBytes)
open Text (Bytes)

/-- The entries of a record: the time unless the instance does without it, the fields, and who
writes, unless the instance does without that and the severity allows it. -/
def recordEntries (setting : Setting) (s : Severity) (fields : Fields) (own : Options) :
    List (String × Scalar) :=
  (if own.contains .noTime then [] else [("timestamp", .string setting.time)]) ++
    fields.map (fun field => (field.1, field.2.scalar)) ++
    if [.emergency, .alert, .critical].contains s || !own.contains .noDiscover then
      [("process", .string setting.identity.process),
        ("hostname", .string setting.identity.hostname), ("pid", .integer setting.identity.pid)]
    else []

theorem appendAll_append (b : Buffer) (first second : List (String × Scalar)) :
    b.appendAll (first ++ second) = (b.appendAll first).appendAll second := by
  induction first generalizing b with
  | nil => rfl
  | cons entry rest ih => exact ih _

theorem appendTo_eq (b : Buffer) (fields : Fields) :
    fields.appendTo b = b.appendAll (fields.map fun field => (field.1, field.2.scalar)) := by
  induction fields generalizing b with
  | nil => rfl
  | cons field rest ih =>
    rcases field with ⟨key, value⟩
    rw [Fields.appendTo, ih]
    cases value with
    | json v =>
      rw [Record.FieldValue.appendTo, Record.singleQuoted_eq]
      rfl
    | _ => rfl

theorem compose_eq (setting : Setting) (m : Message) (own : Options) (b : Buffer) :
    compose setting m own b =
      ((Buffer.begun (some b) setting.indented).appendAll
        (recordEntries setting m.severity m.fields own)).finish := by
  have severe : m.severity.atLeast .critical =
      [.emergency, .alert, .critical].contains m.severity := by
    cases m.severity <;> rfl
  simp only [compose, recordEntries, appendAll_append, appendTo_eq, severe]
  split <;> split <;> rfl

theorem recordFor_eq (setting : Nat → Setting) (m : Message) (id : Nat) (own : Options) :
    recordFor setting m id own = Text.encode ((Buffer.fresh (setting id).indented).appendAll
      (recordEntries (setting id) m.severity m.fields own)).finish.text := by
  rw [recordFor, compose_eq]
  rfl

variable [Handler S] [Handler S']

/-- The layout of records is settled when an engine is made. -/
theorem run_indented (d : Design S W) (calls : List (Call S W)) :
    (d.run calls).indented = d.indented :=
  (run_settled d calls).indented

theorem log_written {e : Engine S W} (sound : Sound e) (host : Host) (s : Severity)
    (options : Options) (fields : Fields) :
    let record := recordFor (e.setting host) ⟨s, options, fields⟩
    (e.log host s options fields).2.filterMap Event.written? =
      ((reached s record e.instances).filter fun i => i.type.writes).map fun i =>
        (i.handle.id, s, record i.handle.id i.options) := by
  intro record
  have bare : ∀ events : List (Event S),
      events.filterMap Event.written? = (events.map Event.bare).filterMap Event.written? := by
    intro events
    rw [List.filterMap_map]
    congr
    funext event
    exact (written?_bare event).symm
  have shares : ∀ instances : List (Instance S W),
      (instances.flatMap (share options s record (traceLines host.frames))).filterMap
        Event.written? = (instances.filter fun i => i.type.writes).map fun i =>
          (i.handle.id, s, record i.handle.id i.options) := by
    intro instances
    induction instances with
    | nil => rfl
    | cons i rest ih =>
      have lines : ((traceLines host.frames).map
          (Event.formatted ⟨i.handle.id, ()⟩ s)).filterMap Event.written? = [] := by
        rw [List.filterMap_map, List.filterMap_eq_nil_iff]
        intro text _
        rfl
      have own : (share options s record (traceLines host.frames) i).filterMap Event.written? =
          if i.type.writes then [(i.handle.id, s, record i.handle.id i.options)] else [] := by
        unfold share
        rw [List.filterMap_append]
        split <;> split <;> simp [lines, Event.written?]
      rw [List.flatMap_cons, List.filterMap_append, ih, own, List.filter_cons]
      split <;> rfl
  have walked : (e.spread host ⟨s, options, fields⟩).events.filterMap Event.written? =
      ((reached s record e.instances).filter fun i => i.type.writes).map fun i =>
        (i.handle.id, s, record i.handle.id i.options) := by
    rw [bare, spread_shares sound host ⟨s, options, fields⟩]
    exact shares _
  have ended : (endings options : List (Event S)).filterMap Event.written? = [] := by
    unfold endings
    cases termination? options <;> rfl
  have informed : (if e.informs then [Event.informed s ((e.counters.increment s).count s)] else
      ([] : List (Event S))).filterMap Event.written? = [] := by
    split <;> rfl
  simp only [log, List.filterMap_append, walked, ended, informed, List.append_nil]

/-- The records that a message makes after any run go to the instances that it comes to. The record
for an instance is one object that holds just its entries, in their order. And in any two runs, with
whatever handlers, the records of messages with the same severity and fields are the same bytes, if
the options of the instances, the layout and the identity agree and, unless the instance does
without it, what the clock shows for them. -/
theorem log_records (d : Design S W) (calls : List (Call S W)) (d' : Design S' W')
    (calls' : List (Call S' W')) (host host' : Host) (s : Severity) (options options' : Options)
    (fields : Fields) :
    let e := d.run calls
    let e' := d'.run calls'
    let record := recordFor (e.setting host) ⟨s, options, fields⟩
    let record' := recordFor (e'.setting host') ⟨s, options', fields⟩
    (e.log host s options fields).2.filterMap Event.written? =
        ((reached s record e.instances).filter fun i => i.type.writes).map (fun i =>
          (i.handle.id, s, record i.handle.id i.options)) ∧
      (∀ id own, ∃ members,
        List.Forall₂ MemberShows (recordEntries (e.setting host id) s fields own) members ∧
          ∀ v, DocumentBytes v (record id own) ↔ v = .object members) ∧
      ∀ (id id' : Nat) (own : Options), d.indented = d'.indented → e.identity = e'.identity →
        own.contains .noTime = true ∨ host.timeFor id = host'.timeFor id' →
          record id own = record' id' own := by
  intro e e' record record'
  refine ⟨log_written (run_sound d calls) host s options fields, ?_, ?_⟩
  · intro id own
    have read := Record.record_reads e.indented (recordEntries (e.setting host id) s fields own)
    refine ⟨_, Record.treesOf_shows _, ?_⟩
    intro v
    constructor
    · rintro ⟨text, same, other⟩
      have texts := Text.encode_injective (same.trans (recordFor_eq (e.setting host) _ id own))
      rw [texts] at other
      exact other.unique read
    · rintro rfl
      exact ⟨_, (recordFor_eq (e.setting host) _ id own).symm, read⟩
  · intro id id' own layout identity time
    have indented : e.indented = e'.indented := by
      rw [run_indented, run_indented, layout]
    have same : recordEntries (e.setting host id) s fields own =
        recordEntries (e'.setting host' id') s fields own := by
      rcases time with without | agree
      · simp only [recordEntries, setting, without, identity, ↓reduceIte]
      · simp only [recordEntries, setting, agree, identity]
    simp only [record, record', recordFor_eq]
    rw [same]
    simp only [setting, indented]

def laterHost : Host := { bareHost with timeFor := fun _ => "2024-01-01T12:00:00" }

/-- An engine that was used, ended and started again writes the same record as one that was only
started. -/
theorem restarted_record :
    let started : List (Call Sink Unit) := [⟨bareHost, .startup ⟨"app", "1", "program"⟩⟩]
    let used : List (Call Sink Unit) :=
      [⟨bareHost, .add "m" "memory" .none ⟨1, .memory (.new true)⟩⟩,
        ⟨laterHost, .log .error .traceStack [("msg", .str "old"), ("size", .int 7)]⟩,
        ⟨laterHost, .shutdown⟩, ⟨laterHost, .startup ⟨"other", "2", "program"⟩⟩]
    let first := memoryDesign.run started
    let second := memoryDesign.run (started ++ used)
    first.identity = second.identity ∧
      recordFor (first.setting bareHost) ⟨.info, .none, [("msg", .str "new")]⟩ 1 .noTime =
        recordFor (second.setting laterHost) ⟨.info, .none, [("msg", .str "new")]⟩ 2 .noTime := by
  intro started used first second
  have same : first.identity = second.identity := rfl
  have records := log_records memoryDesign started memoryDesign (started ++ used) bareHost laterHost
    .info .none .none [("msg", .str "new")]
  exact ⟨same, records.2.2 1 2 .noTime rfl same (.inl (by decide))⟩

end Engine

end StructuredLog
