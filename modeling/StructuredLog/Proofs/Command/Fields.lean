import StructuredLog.Command.Run
import StructuredLog.Proofs.Binary64.Literal
import StructuredLog.Proofs.Command.Arguments
import StructuredLog.Proofs.Config.Levels
import StructuredLog.Proofs.Engine.Building
import StructuredLog.Proofs.Engine.RawDelivery
import StructuredLog.Proofs.Record.RealText
import StructuredLog.Proofs.Text.Decoding

/-!
What becomes of the fields that a command is given. A text with an equals sign is a key and a value;
a whole number of 64 bits and a decimal are written as such numbers and any other value as a string.
Words for what is not finite and decimals past the greatest finite number are taken for numbers and
then written as null, so that these values, and only these, are lost.
-/

namespace StructuredLog.Command

open Binary64 (WritesInt WritesDecimal WritesNonFinite IsWord SpellsReal Nearest overflow)
open Json (DocumentBytes Tree)
open Record (Fields FieldValue)

def WritesLong (text : List Char) (i : Int) : Prop :=
  WritesInt text i ∧ -9223372036854775808 ≤ i ∧ i < 9223372036854775808

/-- What is recorded for a value. A whole number is read back as it was given, and for a decimal the
number nearest to it is read back; what is no number of either kind is kept as a text. -/
inductive Recorded (value : List Char) : Tree → Prop where
  | integer {i : Int} {text : List Char} (writes : WritesLong value i)
      (reads : Binary64.wholeNumber? text = some i) : Recorded value (.number text)
  | real {negative : Bool} {worth shown : ℚ} {x : Binary64} {text : List Char}
      (other : ¬∃ i, WritesLong value i) (writes : WritesDecimal value negative worth)
      (below : worth < overflow) (nearest : Nearest negative worth x)
      (spells : SpellsReal text negative shown) (reads : Binary64.ofLiteral? text = some x) :
      Recorded value (.number text)
  | string (noInt : ¬∃ i, WritesLong value i) (noWord : ¬IsWord value)
      (noDecimal : ¬∃ negative worth, WritesDecimal value negative worth) :
      Recorded value (.string (String.ofList value))
  | null (lost : WritesNonFinite value) : Recorded value .null

theorem signed?_eq_some {text : List Char} {i : Int} :
    ((Binary64.wholeNumber? text).bind Json.Integer.ofInt?).bind Json.Integer.signed? = some i ↔
      WritesLong text i := by
  rw [WritesLong, ← Binary64.wholeNumber?_eq_some]
  constructor
  · intro found
    obtain ⟨n, inner, low⟩ := Option.bind_eq_some_iff.mp found
    obtain ⟨j, reads, range⟩ := Option.bind_eq_some_iff.mp inner
    obtain ⟨bounds, made⟩ := Option.dite_none_right_eq_some.mp range
    cases made
    obtain ⟨high, same⟩ := Option.ite_none_right_eq_some.mp low
    cases same
    exact ⟨reads, bounds.1, high⟩
  · rintro ⟨reads, low, high⟩
    have range : Json.Integer.ofInt? i = some ⟨i, low, by omega⟩ := dif_pos ⟨low, by omega⟩
    rw [reads, Option.bind_some, range, Option.bind_some]
    exact if_pos high

theorem WritesLong.finite {text : List Char} {i : Int} (writes : WritesLong text i) :
    ¬WritesNonFinite text := by
  obtain ⟨whole, low, high⟩ := writes
  obtain ⟨negative, decimal⟩ := whole.decimal
  have size : |(i : ℚ)| ≤ 2 ^ (63 : Int) := by
    rw [abs_le]
    exact ⟨by exact_mod_cast low, by exact_mod_cast high.le⟩
  have top : (2 : ℚ) ^ (63 : Int) < 2 ^ (1023 : Int) := zpow_lt_zpow_right₀ one_lt_two (by decide)
  exact decimal.finite (size.trans_lt (top.trans_le Binary64.two_pow_le_overflow))

theorem fieldValue_recorded (value : List Char) :
    Recorded value (fieldValue (String.ofList value)).scalar.tree := by
  have read := Binary64.ofLiteral?_read value
  unfold fieldValue
  rw [String.toList_ofList]
  simp only
  split
  · next i found =>
    exact .integer (signed?_eq_some.mp found) (Json.intText_value i)
  · next none =>
    have noInt : ¬∃ i, WritesLong value i := by
      rintro ⟨i, writes⟩
      cases none.symm.trans (signed?_eq_some.mpr writes)
    generalize Binary64.ofLiteral? value = number at read
    cases read with
    | @near negative worth x writes below nearest =>
      have finite := nearest.finite
      have spells := Record.real_spells x finite
      rw [nearest.sign] at spells
      simp only [FieldValue.scalar, Record.Scalar.tree, finite, ↓reduceIte]
      exact .real noInt writes below nearest spells (Record.realText_reads finite)
    | @nonFinite x lost beyond =>
      simp only [FieldValue.scalar, Record.Scalar.tree, beyond, Bool.false_eq_true, ↓reduceIte]
      exact .null lost
    | other noWord noDecimal => exact .string noInt noWord noDecimal

theorem Recorded.null_iff {value : List Char} {tree : Tree} (recorded : Recorded value tree) :
    tree = .null ↔ WritesNonFinite value := by
  cases recorded with
  | integer writes reads => exact ⟨nofun, fun lost => absurd lost writes.finite⟩
  | real other writes below nearest spells reads =>
    exact ⟨nofun, fun lost => absurd lost (writes.finite below)⟩
  | string noInt noWord noDecimal =>
    refine ⟨nofun, fun lost => ?_⟩
    rcases lost with word | ⟨negative, worth, writes, -⟩
    · exact absurd word noWord
    · exact absurd ⟨negative, worth, writes⟩ noDecimal
  | null lost => exact ⟨fun _ => lost, fun _ => rfl⟩

/-- A member that stands for the text of a field: the key before the first equals sign, and what is
recorded for the value after it. -/
def Kept (text : String) (member : String × Tree) : Prop :=
  ∃ value, text.toList = member.1.toList ++ '=' :: value ∧ '=' ∉ member.1.toList ∧
    Recorded value member.2 ∧ (member.2 = .null ↔ WritesNonFinite value)

theorem field?_kept {text : String} (keyed : '=' ∈ text.toList) :
    ∃ field, field? text = some field ∧ Kept text (field.1, field.2.scalar.tree) := by
  rcases Text.parted '=' text.toList with ⟨none, -, -⟩ | ⟨key, value, whole, first, taken, left⟩
  · exact absurd keyed none
  · refine ⟨(String.ofList key, fieldValue (String.ofList value)), ?_, value, ?_, ?_, ?_⟩
    · rw [field?, left, taken]
    · rw [String.toList_ofList, whole]
    · rw [String.toList_ofList]
      exact first
    · have recorded := fieldValue_recorded value
      exact ⟨recorded, recorded.null_iff⟩

theorem fields_kept {texts : List String} (keyed : ∀ text ∈ texts, '=' ∈ text.toList) :
    ∃ fields, texts.mapM field? = some fields ∧
      List.Forall₂ Kept texts (fields.map fun field => (field.1, field.2.scalar.tree)) := by
  induction texts with
  | nil => exact ⟨[], rfl, .nil⟩
  | cons text rest ih =>
    rw [List.forall_mem_cons] at keyed
    obtain ⟨field, own, kept⟩ := field?_kept keyed.1
    obtain ⟨fields, others, all⟩ := ih keyed.2
    refine ⟨field :: fields, ?_, .cons kept all⟩
    rw [List.mapM_cons, own, others]
    rfl

theorem untilEnd_begins {S : Type} (events : List (Event S)) : (untilEnd events).1 <+: events := by
  induction events with
  | nil => exact List.prefix_rfl
  | cons event rest ih =>
    cases event with
    | ended termination => exact List.nil_prefix
    | _ => exact List.cons_prefix_cons.mpr ⟨rfl, ih⟩

theorem untilEnd_append {S : Type} {first : List (Event S)}
    (quiet : first.filterMap Event.ending? = []) (rest : List (Event S)) :
    (untilEnd (first ++ rest)).1 = first ++ (untilEnd rest).1 := by
  induction first with
  | nil => rfl
  | cons event first ih =>
    cases event with
    | ended termination => cases quiet
    | _ => exact congrArg (_ :: ·) (ih quiet)

theorem happen_surroundings (w : Surroundings) (events : List (Event Sink))
    (termination : Termination) :
    (happen w events fun w => (w, termination)).1 = w.afterAll (untilEnd events).1 := by
  unfold happen
  rcases untilEnd events with ⟨before, _ | last⟩ <;> rfl

open Engine (receivers recordFor)

theorem untilEnd_unwritten {S : Type} {events : List (Event S)}
    (none : events.filterMap Event.written? = []) :
    (untilEnd events).1.filterMap Event.written? = [] := by
  rw [List.filterMap_eq_nil_iff] at none ⊢
  intro event member
  exact none event ((untilEnd_begins events).subset member)

/-- All records of a message are written before the process may end. -/
theorem log_shutdown_written {e : Engine Sink Surroundings} (sound : Engine.Sound e) (host : Host)
    (s : Severity) (options : Options) (fields : Fields) :
    let record := recordFor (e.setting host) ⟨s, options, fields⟩
    let logged := e.log host s options fields
    (untilEnd (logged.2 ++ logged.1.shutdown.events)).1.filterMap Event.written? =
      (receivers s record e.instances).map
        fun i => (i.handle.id, s, record i.handle.id i.options) := by
  intro record logged
  let walked := (e.spread host ⟨s, options, fields⟩).events
  let informed := if e.informs then [Event.informed s ((e.counters.increment s).count s)] else
    ([] : List (Event Sink))
  have events : logged.2 = walked ++ (Engine.endings options ++ informed) :=
    List.append_assoc _ _ _
  have quiet : walked.filterMap Event.ending? = [] :=
    Engine.walk_endings (Engine.deliver_local _ _ _ _) e.pool e.instances
  have others : (Engine.endings options ++ informed).filterMap Event.written? = [] := by
    have ended : (Engine.endings options : List (Event Sink)).filterMap Event.written? = [] := by
      rw [Engine.endings]
      cases Engine.termination? options <;> rfl
    rw [List.filterMap_append, ended]
    simp only [informed]
    split <;> rfl
  have closed : logged.1.shutdown.events.filterMap Event.written? = [] := by
    refine (Engine.removals_filterMap Event.written? logged.1.instances).trans ?_
    simp only [Event.written?, List.filterMap_none, List.append_nil]
  have rest : ((Engine.endings options ++ informed) ++ logged.1.shutdown.events).filterMap
      Event.written? = [] := by
    rw [List.filterMap_append, others, closed]
    rfl
  have written : logged.2.filterMap Event.written? = _ :=
    Engine.log_written sound host s options fields
  rw [events, List.filterMap_append, others, List.append_nil] at written
  rw [events, List.append_assoc, untilEnd_append quiet, List.filterMap_append,
    untilEnd_unwritten rest, List.append_nil]
  exact written

theorem recordFor_document (setting : Nat → Engine.Setting) (m : Engine.Message) (id : Nat)
    (own : Options) (v : Tree) : DocumentBytes v (recordFor setting m id own) ↔
      v = .object (Record.treesOf (Engine.recordEntries (setting id) m.severity m.fields own)) := by
  have read := Record.record_reads (setting id).indented
    (Engine.recordEntries (setting id) m.severity m.fields own)
  constructor
  · rintro ⟨text, same, other⟩
    have texts := Text.encode_injective (same.trans (Engine.recordFor_eq setting m id own))
    rw [texts] at other
    exact other.unique read
  · rintro rfl
    exact ⟨_, (Engine.recordFor_eq setting m id own).symm, read⟩

/-- A record for an instance: the message and the members `kept` after it, in front of them only
the time and behind them only who writes, as far as the instance has them. -/
def IsRecord (s : Severity) (own : Options) (message : String) (kept : List (String × Tree))
    (data : Text.Bytes) : Prop :=
  ∃ front back : List (String × Tree),
    front.map Prod.fst = (if own.contains .noTime then [] else ["timestamp"]) ∧
    back.map Prod.fst =
      (if [.emergency, .alert, .critical].contains s || !own.contains .noDiscover then
        ["process", "hostname", "pid"] else []) ∧
    ∀ v, DocumentBytes v data ↔ v = .object (front ++ ("msg", .string message) :: kept ++ back)

theorem recordFor_isRecord (setting : Nat → Engine.Setting) (s : Severity) (options : Options)
    (id : Nat) (own : Options) (message : String) (fields : Fields) :
    IsRecord s own message (fields.map fun field => (field.1, field.2.scalar.tree))
      (recordFor setting ⟨s, options, (Fields.messageKey, .str message) :: fields⟩ id own) := by
  let front : List (String × Tree) :=
    if own.contains .noTime then [] else [("timestamp", .string (setting id).time)]
  let back : List (String × Tree) :=
    if [.emergency, .alert, .critical].contains s || !own.contains .noDiscover then
      [("process", .string (setting id).identity.process),
        ("hostname", .string (setting id).identity.hostname),
        ("pid", .number (Json.intText (setting id).identity.pid))]
    else []
  have members : Record.treesOf
      (Engine.recordEntries (setting id) s ((Fields.messageKey, .str message) :: fields) own) =
        front ++ ("msg", .string message) ::
          (fields.map fun field => (field.1, field.2.scalar.tree)) ++ back := by
    simp only [Engine.recordEntries, Record.treesOf, List.map_append, List.map_map, front, back]
    congr 1
    · congr 1
      split <;> rfl
    · split <;> rfl
  refine ⟨front, back, ?_, ?_, fun v => ?_⟩
  · simp only [front]
    split <;> rfl
  · simp only [back]
    split <;> rfl
  · rw [recordFor_document, members]

theorem runArguments_log {host : Host} {w : Surroundings} {args : List String}
    {level : Option String} {c : LogCommand} {settings : Config.LogSettings}
    {e : Engine Sink Surroundings} (reads : read args = .run level (.log c))
    (configured : (settingsFor host w c).final = some (.ok settings))
    (started : (Engine.ofSettings host Sink.builtinTypes w settings host.command).engine = .ok e) :
    (runArguments host w args).final = some (logWith host e c
      (Engine.ofSettings host Sink.builtinTypes w settings host.command).surroundings) := by
  have silent : (Engine.ofSettings host Sink.builtinTypes w settings host.command).events = [] :=
    ((Engine.ofSettings_builds host Sink.consoleFactory Sink.fileFactory Sink.datagramFactory w
      settings host.command).engine e started).2.2.1
  have logged : logBy host w c settings = logWith host e c
      (Engine.ofSettings host Sink.builtinTypes w settings host.command).surroundings := by
    simp only [logBy, started, silent]
    rfl
  rw [runArguments, reads]
  have step : (runLog host w c).final = (settingsFor host w c).final.bind _ :=
    Config.Delay.final_bind _ _
  rw [configured, Option.bind_some] at step
  rw [← logged]
  exact step.trans (Config.Delay.final_pure _)

theorem ofSettings_sound {host : Host} {w : Surroundings} {settings : Config.LogSettings}
    {e : Engine Sink Surroundings}
    (started : (Engine.ofSettings host Sink.builtinTypes w settings host.command).engine = .ok e) :
    Engine.Sound e := by
  have runs := Engine.ofSettings_run host Sink.builtinTypes w settings host.command
  simp only [started] at runs
  rw [runs.1]
  exact Engine.run_sound _ _

def consoleInstance (number : Nat) : Instance Sink Surroundings :=
  ⟨"console", Engine.completed .allSeverities, Sink.typeWith "stdout" Sink.consoleFactory,
    ⟨number, .console true⟩⟩

/-- Where no settings are given there is always an engine, and the console is all that it has. -/
theorem console_built (host : Host) (w : Surroundings) :
    ∃ e, (Engine.ofSettings host Sink.builtinTypes w consoleSettings host.command).engine = .ok e ∧
      e.instances = [("console", consoleInstance w.handles)] :=
  ⟨_, rfl, rfl⟩

theorem console_receives {host : Host} {w : Surroundings} {c : LogCommand}
    {settings : Config.LogSettings} {e : Engine Sink Surroundings}
    (configured : (settingsFor host w c).final = some (.ok settings))
    (started : (Engine.ofSettings host Sink.builtinTypes w settings host.command).engine = .ok e)
    (none : c.config = none) (s : Severity) (record : Nat → Options → Text.Bytes) :
    receivers s record e.instances = [consoleInstance w.handles] := by
  rw [settingsFor, none] at configured
  cases (Config.Delay.final_pure _).symm.trans configured
  obtain ⟨other, built, instances⟩ := console_built host w
  cases started.symm.trans built
  have wants : (consoleInstance w.handles).options.contains (.ofSeverity s) = true := by
    have all : (Engine.completed .allSeverities).contains (.ofSeverity s) = true := by
      cases s <;> decide
    exact all
  have untaken : Engine.takes s record (consoleInstance w.handles) = false := rfl
  rw [receivers, instances, Engine.reached_cons, if_pos wants, untaken]
  rfl

/-- The fields of a message on a command line are those of its arguments. Every record of the
message has a member for each of them, after the message and in their order, whose key is what
stands before the first equals sign and whose value stands for the text after it. Only a value that
writes what is not finite is lost. Where no settings are given the console has such a record. -/
theorem fields_recorded {host : Host} {w : Surroundings} {args : List String}
    {level : Option String} {c : LogCommand} {options : Options} {settings : Config.LogSettings}
    {e : Engine Sink Surroundings} (reads : read args = .run level (.log c))
    (keyed : ∀ text ∈ c.fields, '=' ∈ text.toList) (known : Options.ofNames c.options = .ok options)
    (configured : (settingsFor host w c).final = some (.ok settings))
    (started : (Engine.ofSettings host Sink.builtinTypes w settings host.command).engine = .ok e) :
    c.fields = fieldTexts false args ∧
    ∃ (record : Nat → Options → Text.Bytes) (kept : List (String × Tree))
        (events : List (Event Sink)),
      List.Forall₂ Kept c.fields kept ∧
      (∀ id own, IsRecord c.severity own c.message kept (record id own)) ∧
      events.filterMap Event.written? = (receivers c.severity record e.instances).map
        (fun i => (i.handle.id, c.severity, record i.handle.id i.options)) ∧
      (c.config = none →
        receivers c.severity record e.instances = [consoleInstance w.handles]) ∧
      (runArguments host w args).final.map Prod.fst =
        some ((Engine.ofSettings host Sink.builtinTypes w settings
          host.command).surroundings.afterAll events) := by
  obtain ⟨fields, given, all⟩ := fields_kept keyed
  have made : c.record? = some ((Fields.messageKey, .str c.message) :: fields) := by
    rw [LogCommand.record?, given, Option.map_some]
  have written := log_shutdown_written (ofSettings_sound started) host c.severity options
    ((Fields.messageKey, .str c.message) :: fields)
  have recorded := fun id own =>
    recordFor_isRecord (e.setting host) c.severity options id own c.message fields
  refine ⟨read_fields reads, _, _, _, all, recorded, written,
    fun none => console_receives configured started none _ _, ?_⟩
  rw [runArguments_log reads configured started, logWith, made, known]
  exact congrArg some (happen_surroundings _ _ _)

theorem number_and_word_recorded :
    let args := ["log", "-m", "text", "--field", "n=12", "-fx=nan"]
    let host := Engine.bareHost
    let w : Surroundings := ⟨FileTree.empty [], [], [], true, "", 0, false⟩
    let c : LogCommand := ⟨none, .info, "text", ["n=12", "x=nan"], []⟩
    let built := Engine.ofSettings host Sink.builtinTypes w consoleSettings host.command
    read args = .run none (.log c) ∧ (∀ text ∈ c.fields, '=' ∈ text.toList) ∧
      Options.ofNames c.options = .ok .none ∧
      (settingsFor host w c).final = some (.ok consoleSettings) ∧
      ∃ e, built.engine = .ok e ∧
        c.fields = fieldTexts false args ∧
        ∃ (record : Nat → Options → Text.Bytes) (kept : List (String × Tree))
            (events : List (Event Sink)),
          List.Forall₂ Kept c.fields kept ∧
          (∀ id own, IsRecord c.severity own c.message kept (record id own)) ∧
          events.filterMap Event.written? = (receivers c.severity record e.instances).map
            (fun i => (i.handle.id, c.severity, record i.handle.id i.options)) ∧
          (c.config = none →
            receivers c.severity record e.instances = [consoleInstance w.handles]) ∧
          (runArguments host w args).final.map Prod.fst =
            some (built.surroundings.afterAll events) := by
  intro args host w c built
  have reads : read args = .run none (.log c) := rfl
  have keyed : ∀ text ∈ c.fields, '=' ∈ text.toList := by decide
  have configured : (settingsFor host w c).final = some (.ok consoleSettings) :=
    Config.Delay.final_pure _
  refine ⟨reads, keyed, rfl, configured, _, rfl, ?_⟩
  exact fields_recorded reads keyed rfl configured rfl

/-- The word alone: what was given is not printed. -/
theorem word_printed_null :
    ((runArguments Engine.bareHost ⟨FileTree.empty [], [], [], true, "", 0, false⟩
      ["log", "-m", "text", "--field", "x=nan"]).within 0).map (fun done => done.1.printed) = some
        (Text.bytes ("\x1b[0;32m\x7b\"timestamp\": \"2024-01-01\", \"msg\": \"text\", " ++
          "\"x\": null, \"process\": \"program\", \"hostname\": \"host\", \"pid\": 1 \x7d\x1b[0m\n")) := by
  decide +kernel

end StructuredLog.Command
