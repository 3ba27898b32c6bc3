import StructuredLog.Proofs.Engine.RecordContent
import StructuredLog.Proofs.Engine.Refusal

/-!
Bytes go the way of records. If what the handlers answer does not hang on the bytes that they are
given, then bytes that are handed over as they are come to the same instances as the records of a
message, in the same order, and the process is asked to end in the same way. Nothing else is done:
no lines are shown, nothing is counted or remembered, and nobody is told.
-/

namespace StructuredLog

variable {S W : Type}

def Event.ending? : Event S → Option Termination
  | .ended termination => some termination
  | _ => none

namespace Engine

open Record (Pool Fields)
open Text (Bytes)

theorem walk_endings {C : Type} {visit : C → Instance S W → Visit C S W}
    (isLocal : ∀ carried i, (visit carried i).Local i) (carried : C)
    (table : Table (Instance S W)) :
    (walk visit carried table).events.filterMap Event.ending? = [] := by
  refine walk_silent (fun event id receives => ?_) isLocal carried table
  cases event with
  | ended termination => cases receives
  | _ => rfl

variable [Handler S]

def Indifferent (s : Severity) (i : Instance S W) : Prop :=
  ∀ first second : Bytes,
    (Handler.write i.handle.state s first).1 = (Handler.write i.handle.state s second).1

def receivers (s : Severity) (record : Nat → Options → Bytes) (table : Table (Instance S W)) :
    List (Instance S W) :=
  (reached s record table).filter fun i => i.type.writes

theorem Indifferent.takes {s : Severity} {i : Instance S W} (indifferent : Indifferent s i)
    (first second : Nat → Options → Bytes) : takes s first i = takes s second i := by
  rw [Engine.takes, Engine.takes,
    indifferent (first i.handle.id i.options) (second i.handle.id i.options)]

/-- Where no answer hangs on the bytes, whom a message comes to does not either. -/
theorem reached_congr {s : Severity} {table : Table (Instance S W)}
    (indifferent : ∀ entry ∈ table, Indifferent s entry.2)
    (first second : Nat → Options → Bytes) :
    reached s first table = reached s second table := by
  induction table with
  | nil => rfl
  | cons entry rest ih =>
    rcases entry with ⟨name, i⟩
    rw [List.forall_mem_cons] at indifferent
    rw [reached_cons, reached_cons, indifferent.1.takes first second, ih indifferent.2]

theorem receivers_congr {s : Severity} {table : Table (Instance S W)}
    (indifferent : ∀ entry ∈ table, Indifferent s entry.2)
    (first second : Nat → Options → Bytes) :
    receivers s first table = receivers s second table := by
  rw [receivers, receivers, reached_congr indifferent first second]

theorem deliverRaw_share (s : Severity) (data : Bytes) {i : Instance S W}
    (wants : i.options.contains (.ofSeverity s) = true) :
    (deliverRaw s data () i).stops = takes s (fun _ _ => data) i ∧
      (deliverRaw s data () i).events = if i.type.writes then [.wrote i.handle s data] else [] := by
  have listens : i.options.ignores s = false := by
    rw [Options.ignores, wants]
    rfl
  by_cases writes : i.type.writes = true
  · simp only [deliverRaw, listens, writes, Bool.not_true, Bool.or_self, Bool.false_eq_true,
      ↓reduceIte, takes, Bool.true_and]
    exact ⟨rfl, trivial⟩
  · rw [Bool.not_eq_true] at writes
    simp only [deliverRaw, listens, writes, Bool.not_false, Bool.or_true, ↓reduceIte, Visit.skip,
      takes, Bool.false_and, Bool.false_eq_true, and_self]

theorem walk_deliverRaw (s : Severity) (data : Bytes) (table : Table (Instance S W)) :
    (walk (deliverRaw s data) () table).events =
      (receivers s (fun _ _ => data) table).map fun i => .wrote i.handle s data := by
  induction table with
  | nil => rfl
  | cons entry rest ih =>
    rcases entry with ⟨name, i⟩
    rw [receivers] at ih ⊢
    rw [reached_cons]
    by_cases wants : i.options.contains (.ofSeverity s) = true
    · obtain ⟨stops, events⟩ := deliverRaw_share s data wants
      rw [if_pos wants]
      -- The instance that takes the bytes is the last of the walk, and it is one that writes.
      by_cases taken : takes s (fun _ _ => data) i = true
      · have writes : i.type.writes = true := by
          rw [takes, Bool.and_eq_true] at taken
          exact taken.1
        simp only [walk, stops, taken, ↓reduceIte, events, writes, List.filter_cons,
          List.filter_nil, List.map_cons, List.map_nil]
      · simp only [walk, stops, taken, Bool.false_eq_true, ↓reduceIte, events, List.filter_cons]
        split
        · exact congrArg (Event.wrote i.handle s data :: ·) ih
        · exact ih
    · have skipped : deliverRaw s data () i = .skip () i := by
        rw [deliverRaw, Options.ignores, if_pos]
        simp only [wants, Bool.not_false, Bool.true_or]
      rw [if_neg wants, ← ih]
      simp only [walk, skipped, Visit.skip, Bool.false_eq_true, ↓reduceIte, List.nil_append]

theorem log_endings (host : Host) (e : Engine S W) (s : Severity) (options : Options)
    (fields : Fields) :
    (e.log host s options fields).2.filterMap Event.ending? = (asked options).toList := by
  have walked : (e.spread host ⟨s, options, fields⟩).events.filterMap Event.ending? = [] :=
    walk_endings (deliver_local _ _ _ _) e.pool e.instances
  have ended : (endings options : List (Event S)).filterMap Event.ending? =
      (asked options).toList := by
    rw [endings, termination?_eq]
    cases asked options <;> rfl
  have informed : (if e.informs then [Event.informed s ((e.counters.increment s).count s)] else
      ([] : List (Event S))).filterMap Event.ending? = [] := by
    split <;> rfl
  simp only [log, List.filterMap_append, walked, ended, informed, List.nil_append, List.append_nil]

theorem logRaw_unmoved (e : Engine S W) (s : Severity) (options : Options) (data : Bytes) :
    Unmoved e (e.logRaw s options data).1 where
  app := rfl
  identity := rfl
  types := rfl
  roster := (logRaw_quiet e s options data).roster
  slot := rfl
  size := rfl

/-- After any run that leaves handlers whose answers do not hang on the bytes: the instances that
are given the records of a message are those that are given bytes of its severity, in the same
order, and the same end is asked for. Of the bytes there is nothing else to be seen, and they leave
everything but the states of the handlers as it was. -/
theorem logRaw_follows_log (d : Design S W) (calls : List (Call S W)) (s : Severity)
    (indifferent : ∀ entry ∈ (d.run calls).instances, Indifferent s entry.2)
    (host : Host) (options : Options) (fields : Fields) (data : Bytes) :
    let e := d.run calls
    let record := recordFor (e.setting host) ⟨s, options, fields⟩
    let given := receivers s record e.instances
    (e.log host s options fields).2.filterMap Event.written? =
        given.map (fun i => (i.handle.id, s, record i.handle.id i.options)) ∧
      (e.log host s options fields).2.filterMap Event.ending? = (asked options).toList ∧
      (e.logRaw s options data).2 =
        given.map (fun i => .wrote i.handle s data) ++ (asked options).toList.map .ended ∧
      Unmoved e (e.logRaw s options data).1 ∧
      (e.logRaw s options data).1.counters = e.counters ∧
      (e.logRaw s options data).1.lastMessage = e.lastMessage := by
  intro e record given
  -- Bytes are a record that is the same for all instances, so they come to the same instances.
  have same : given = receivers s (fun _ _ => data) e.instances :=
    receivers_congr indifferent record fun _ _ => data
  have bytes : (e.logRaw s options data).2 =
      given.map (fun i => .wrote i.handle s data) ++ (asked options).toList.map .ended := by
    rw [logRaw, walk_deliverRaw, ← same, endings, termination?_eq]
    cases asked options <;> rfl
  exact ⟨log_written (run_sound d calls) host s options fields, log_endings host e s options fields,
    bytes, logRaw_unmoved e s options data, rfl, rfl⟩

theorem sink_indifferent (s : Severity) (i : Instance Sink W) : Indifferent s i := by
  intro first second
  cases same : i.handle.state <;> rfl

/-- Bytes come to the first instance, pass over one that does not want them, and end at the one
that takes them. -/
theorem bytes_follow_records :
    let calls : List (Call Sink Unit) :=
      [.startup ⟨"app", "1", "program"⟩, .add "a" "memory" .none ⟨1, .fixed 0⟩,
        .add "b" "memory" (.ofSeverity .error) ⟨2, .fixed 0⟩,
        .add "c" "memory" .none ⟨3, .fixed (-1)⟩,
        .add "d" "memory" .none ⟨4, .fixed 0⟩].map (Call.mk bareHost)
    let e := memoryDesign.run calls
    (∀ entry ∈ e.instances, Indifferent .info entry.2) ∧
      ((e.log bareHost .info .exitZero [("msg", .str "hello")]).2.filterMap
          Event.written?).map Prod.fst = [1, 3] ∧
      (e.logRaw .info .exitZero [104, 105]).2 =
        [.wrote ⟨1, .fixed 0⟩ .info [104, 105], .wrote ⟨3, .fixed (-1)⟩ .info [104, 105],
          .ended (.exit 0)] := by
  intro calls e
  have indifferent : ∀ entry ∈ e.instances, Indifferent .info entry.2 :=
    fun entry _ => sink_indifferent .info entry.2
  obtain ⟨records, -, bytes, -⟩ := logRaw_follows_log memoryDesign calls .info indifferent bareHost
    .exitZero [("msg", .str "hello")] [104, 105]
  refine ⟨indifferent, ?_, bytes⟩
  rw [records, List.map_map]
  rfl

end Engine

end StructuredLog
