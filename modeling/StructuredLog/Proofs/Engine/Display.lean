import StructuredLog.Proofs.Dump
import StructuredLog.Proofs.Engine.Refusal
import StructuredLog.Proofs.Json.Lines

/-!
What is shown to handlers. Bytes and documents are shown in lines, under a header, to the instances
that want to debug and whose type has lines. Each of them gets all lines, whatever it or any other
answers, and nothing else is done: no instance is handed a record, nothing is counted or remembered,
nobody is told, and the process is not asked to end.
-/

namespace StructuredLog

variable {S W : Type}

def Instance.views (s : Severity) (i : Instance S W) : Bool :=
  i.options.contains (.ofSeverity s) && i.type.formats

/-- The instance after lines were shown. Its handle was given every line in turn, with no regard to
what it answered, if the lines are for it. -/
def Instance.shown [Handler S] (s : Severity) (lines : List String) (i : Instance S W) :
    Instance S W :=
  if i.views s then
    i.withState (lines.foldl (fun state text => (Handler.format state s text).2) i.handle.state)
  else i

namespace Engine

open Text (Bytes)

def viewers (s : Severity) (table : Table (Instance S W)) : List (Instance S W) :=
  (table.map Prod.snd).filter (Instance.views s)

inductive Exhibit where
  | dump (data : Bytes)
  | document (v : Json.Value)
  | digits (data : Bytes)

def Exhibit.operation (label : String) : Exhibit → Operation S W
  | .dump data => .displayBytes data label
  | .document v => .displayDocument v label
  | .digits data => .displayHex data label

/-- The lines in which something is shown under a label. After a header a dump has a line for every
sixteen bytes that begin, and a document the lines of its indented text, which is read back as the
document; a run of digits stands in the line of its header. -/
inductive Shows (time label : String) : Exhibit → List String → Prop where
  | dump {data : Bytes} {lines : List (List Char)}
      (count : lines.length = (data.length + 15) / 16)
      (each : ∀ i < lines.length, ∃ column cells shown,
        lines[i]? = some (column ++ [':', ' '] ++ cells.flatten ++ shown) ∧
          Dump.IsLine (16 * i) ((data.drop (16 * i)).take 16) column cells shown)
      (reads : Dump.ofLines? lines = some data) :
      Shows time label (.dump data)
        ((time ++ " - " ++ label ++ " (" ++ toString data.length ++ " bytes)") ::
          lines.map String.ofList)
  | document {v : Json.Value} {lines : List (List Char)}
      (joined : ['\n'].intercalate lines = v.text (.indented 0))
      (each : ∀ line ∈ lines, line ≠ [] ∧ ∀ c ∈ line, 0x20 ≤ c.toNat)
      (laid : lines = v.lines) (shown : Json.Indented v (['\n'].intercalate lines)) :
      Shows time label (.document v) ((time ++ " - " ++ label) :: lines.map String.ofList)
  | digits {data : Bytes} {digits : List Char} (small : ∀ d ∈ digits, d ∈ Text.smallHex)
      (pairs : digits.length = 2 * data.length) (reads : Dump.ofHex? digits = some data) :
      Shows time label (.digits data)
        [time ++ " - " ++ label ++ " [" ++ toString data.length ++ "] " ++ String.ofList digits]

variable [Handler S]

theorem format_state (i : Instance S W) (s : Severity) (lines : List String) :
    (i.format s lines).1 =
      i.withState (lines.foldl (fun state text => (Handler.format state s text).2)
        i.handle.state) := by
  induction lines generalizing i with
  | nil => rfl
  | cons text rest ih => exact ih (i.withState (Handler.format i.handle.state s text).2)

/-- The visit of lines gives all of them to the instance or leaves it alone, and goes on. -/
theorem deliverLines_shown (s : Severity) (lines : List String) (i : Instance S W) :
    (deliverLines s lines () i).stops = false ∧
      (deliverLines s lines () i).visited = i.shown s lines ∧
      (deliverLines s lines () i).events.map Event.bare =
        if i.views s then lines.map (.formatted ⟨i.handle.id, ()⟩ s) else [] := by
  have apart : (i.options.ignores s || !i.type.formats) = !i.views s := by
    rw [Options.ignores, Instance.views, Bool.not_and]
  unfold deliverLines Instance.shown
  rw [apart]
  by_cases views : i.views s = true
  · simp only [views, Bool.not_true, Bool.false_eq_true, ↓reduceIte]
    exact ⟨trivial, format_state i s lines, format_bare i s lines⟩
  · rw [Bool.not_eq_true] at views
    simp only [views, Bool.not_false, Bool.false_eq_true, ↓reduceIte, Visit.skip, List.map_nil,
      and_self]

theorem walk_deliverLines (s : Severity) (lines : List String) (table : Table (Instance S W)) :
    (walk (deliverLines s lines) () table).instances =
        table.map (fun entry => (entry.1, entry.2.shown s lines)) ∧
      (walk (deliverLines s lines) () table).events.map Event.bare =
        (viewers s table).flatMap fun i => lines.map (.formatted ⟨i.handle.id, ()⟩ s) := by
  induction table with
  | nil => exact ⟨rfl, rfl⟩
  | cons entry rest ih =>
    rcases entry with ⟨name, i⟩
    obtain ⟨goes, visited, events⟩ := deliverLines_shown s lines i
    obtain ⟨others, later⟩ := ih
    simp only [walk, goes, Bool.false_eq_true, ↓reduceIte, visited, others, List.map_cons,
      List.map_append, events, later, true_and, viewers, List.filter_cons]
    split
    · rw [List.flatMap_cons]
    · rw [List.nil_append]

theorem display_unmoved (e : Engine S W) (s : Severity) (lines : List String) :
    Unmoved e (e.display s lines).1 where
  app := rfl
  identity := rfl
  types := rfl
  roster := (display_quiet e s lines).roster
  slot := rfl
  size := rfl

theorem dump_shows (time label : String) (data : Bytes) :
    Shows time label (.dump data)
      ((time ++ " - " ++ label ++ " (" ++ toString data.length ++ " bytes)") ::
        (Dump.lines data).map String.ofList) := by
  have sixteens := Dump.linesFrom_eq 0 (Nat.le_refl data.length)
  have count : (Dump.lines data).length = (data.length + 15) / 16 := by
    rw [Dump.lines, sixteens, List.length_map, List.length_range]
  refine .dump count ?_ (Dump.linesFrom_reads 0 (Nat.le_refl data.length))
  intro i inside
  rw [count] at inside
  refine ⟨_, _, _, ?_, Dump.line_isLine _ (List.length_take_le _ _)⟩
  rw [Dump.lines, sixteens, List.getElem?_map, List.getElem?_range inside, Option.map_some,
    Nat.zero_add, Dump.line_eq]

theorem document_shows (time label : String) (v : Json.Value) :
    Shows time label (.document v) ((time ++ " - " ++ label) ::
      (Text.splitOn '\n' (v.text (.indented 0))).map String.ofList) := by
  rw [Json.splitOn_text]
  refine .document (Json.text_lines v).symm (Json.lines_filled v) rfl ?_
  rw [← Json.text_lines]
  exact Json.text_indented v

theorem outcome_shows (host : Host) (label : String) (x : Exhibit) (e : Engine S W) :
    ∃ lines, Shows host.time label x lines ∧
      (Call.mk host (x.operation label)).outcome e = answered (e.display .debug lines) := by
  cases x with
  | dump data =>
    have header : stamped host s!"{label} ({data.length} bytes)" =
        host.time ++ " - " ++ label ++ " (" ++ toString data.length ++ " bytes)" := by
      simp only [stamped, String.append_assoc]
      rfl
    refine ⟨_, dump_shows host.time label data, ?_⟩
    rw [← header]
    rfl
  | document v => exact ⟨_, document_shows host.time label v, rfl⟩
  | digits data =>
    obtain ⟨small, pairs, reads⟩ := Dump.hex_reads data
    have line : stamped host s!"{label} [{data.length}] {String.ofList (Dump.hex data)}" =
        host.time ++ " - " ++ label ++ " [" ++ toString data.length ++ "] " ++
          String.ofList (Dump.hex data) := by
      simp only [stamped, String.append_assoc]
      rfl
    refine ⟨_, .digits small pairs reads, ?_⟩
    rw [← line]
    rfl

/-- After any run, whatever is shown is shown in its lines, all of them and in their order, to every
instance that wants to debug and whose type has lines, one instance after another in the order in
which they were added. Nothing else happens, and nothing else is left of it than what these handlers
made of the lines. -/
theorem exhibit_shown (d : Design S W) (calls : List (Call S W)) (host : Host) (label : String)
    (x : Exhibit) :
    let e := d.run calls
    let o := (Call.mk host (x.operation label)).outcome e
    e.ids.Sublist (takenIn d.engine calls) ∧
      ∃ lines, Shows host.time label x lines ∧
        o.events.map Event.bare =
          (viewers .debug e.instances).flatMap
            (fun i => lines.map (.formatted ⟨i.handle.id, ()⟩ .debug)) ∧
        o.engine = { e with
          instances := e.instances.map fun entry => (entry.1, entry.2.shown .debug lines) } ∧
        Unmoved e o.engine := by
  intro e o
  have ordered : e.ids.Sublist (takenIn d.engine calls) := by
    have order := ids_order d.engine calls (new_sound d)
    exact order
  obtain ⟨lines, shows, outcome⟩ := outcome_shows host label x e
  obtain ⟨instances, events⟩ := walk_deliverLines .debug lines e.instances
  have shown : o = answered (e.display .debug lines) := outcome
  refine ⟨ordered, lines, shows, ?_, ?_, ?_⟩
  · rw [shown]
    exact events
  · rw [shown, ← instances]
    rfl
  · rw [shown]
    exact display_unmoved e .debug lines

/-- Negative answers stop nothing: the header and the one line of a dump come to the first and to
the last instance, and not to the one between them, which wants errors only. -/
example :
    let e := memoryDesign.run ([.startup ⟨"app", "1", "program"⟩,
      .add "a" "memory" .none ⟨1, .fixed (-1)⟩,
      .add "b" "memory" (.ofSeverity .error) ⟨2, .fixed (-1)⟩,
      .add "c" "memory" .none ⟨3, .fixed (-1)⟩].map (Call.mk bareHost))
    (e.displayBytes bareHost [0x41] "label").2.filterMap Event.receiver? = [1, 1, 3, 3] := by
  rfl

end Engine

end StructuredLog
