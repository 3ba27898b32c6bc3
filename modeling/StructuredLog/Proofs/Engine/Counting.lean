import Mathlib.Data.List.DropRight
import StructuredLog.Proofs.Engine.Refusal

/-!
What is counted. A message counts under its severity, whoever gets it or not, and what the engine
itself refuses counts as an error; nothing else counts. The caller who wants to be told is told of
each of them, with the new count.
-/

namespace StructuredLog

variable {S W : Type}

def Event.informed? : Event S → Option (Severity × Nat)
  | .informed s count => some (s, count)
  | _ => none

theorem Event.informed?_of_receiver? {event : Event S} {id : Nat}
    (receives : event.receiver? = some id) : event.informed? = none := by
  cases event with
  | informed s count => cases receives
  | wrote handle s data => rfl
  | formatted handle s text => rfl
  | unlisted handle => rfl
  | closed handle => rfl
  | ended termination => rfl

namespace Engine

open Record (Fields)

def Operation.message? : Operation S W → Option Severity
  | .log severity _ _ => some severity
  | _ => none

def Operation.resets : Operation S W → Bool
  | .resetCounters => true
  | _ => false

def Operation.informs? : Operation S W → Option Bool
  | .setInforms informs => some informs
  | _ => none

def told (events : List (Event S)) : List (Severity × Nat) := events.filterMap Event.informed?

theorem told_append (first second : List (Event S)) :
    told (first ++ second) = told first ++ told second :=
  List.filterMap_append

theorem told_nothing {events : List (Event S)} (silent : ∀ event ∈ events, event.informed? = none) :
    told events = [] :=
  List.filterMap_eq_nil_iff.mpr silent

theorem told_walk {C : Type} {visit : C → Instance S W → Visit C S W}
    (isLocal : ∀ carried i, (visit carried i).Local i) (carried : C)
    (table : Table (Instance S W)) : told (walk visit carried table).events = [] :=
  walk_silent (fun _ _ => Event.informed?_of_receiver?) isLocal carried table

theorem told_endings (options : Options) : told (endings options : List (Event S)) = [] := by
  rw [endings]
  cases termination? options <;> rfl

theorem told_removals (removed : Table (Instance S W)) : told (removals removed) = [] := by
  rw [told, removals_filterMap]
  simp only [Event.informed?, List.filterMap_none, List.append_nil]

/-- What becomes of the counts and of the caller in a call that is counted or not, that sets the
counts back or not, and that may say whether the caller wants to be told. -/
structure Accounted (e : Engine S W) (counted : Option Severity) (resets : Bool)
    (informs? : Option Bool) (o : Outcome S W Answer) : Prop where
  counts : ∀ s, o.engine.counters.count s =
    (if resets then 0 else e.counters.count s) + counted.toList.count s
  informs : o.engine.informs = informs?.getD e.informs
  tells : told o.events =
    if e.informs then counted.toList.map fun s => (s, o.engine.counters.count s) else []

theorem Accounted.still {e : Engine S W} {o : Outcome S W Answer}
    (counters : o.engine.counters = e.counters) (informs : o.engine.informs = e.informs)
    (silent : told o.events = []) : Accounted e none false none o where
  counts := by
    intro s
    rw [counters]
    rfl
  informs := informs
  tells := by
    rw [silent]
    exact (ite_self []).symm

variable [Handler S]

/-- Whether the engine itself refuses, and not a factory that it calls. -/
def Call.isRefused (c : Call S W) (e : Engine S W) : Bool :=
  match (c.outcome e).answer with
  | .result (.error error) => error.isRefusal && (c.operation.fault? e).isNone
  | _ => false

def Call.counted? (c : Call S W) (e : Engine S W) : Option Severity :=
  if c.isRefused e then some .error else c.operation.message?

def countedIn (e : Engine S W) : List (Call S W) → List Severity
  | [] => []
  | c :: rest => (c.counted? e).toList ++ countedIn (c.outcome e).engine rest

def refusalsIn (e : Engine S W) : List (Call S W) → Nat
  | [] => 0
  | c :: rest => (if c.isRefused e then 1 else 0) + refusalsIn (c.outcome e).engine rest

/-- All that is counted in a run while the caller wants to be told, each with the count after it. -/
def tellingsIn (e : Engine S W) : List (Call S W) → List (Severity × Nat)
  | [] => []
  | c :: rest =>
      let next := (c.outcome e).engine
      (if e.informs then (c.counted? e).toList.map fun s => (s, next.counters.count s) else []) ++
        tellingsIn next rest

def sinceReset (calls : List (Call S W)) : List (Call S W) :=
  calls.rtakeWhile fun c => !c.operation.resets

/-- The calls up to when the counts were last set back. -/
def untilReset (calls : List (Call S W)) : List (Call S W) :=
  calls.rdropWhile fun c => !c.operation.resets

theorem told_log (host : Host) (e : Engine S W) (s : Severity) (options : Options)
    (fields : Fields) :
    told (e.log host s options fields).2 =
      if e.informs then [(s, (e.log host s options fields).1.counters.count s)] else [] := by
  have walked : told (e.spread host ⟨s, options, fields⟩).events = [] :=
    told_walk (deliver_local (e.setting host) e.slot (Stack.enclose host.frames)
      ⟨s, options, fields⟩) e.pool e.instances
  simp only [log, told_append, walked, told_endings, List.nil_append]
  split <;> rfl

/-- A message is counted once under its severity, whatever happened before it in the same call. -/
theorem log_accounted (host : Host) (e : Engine S W) (s : Severity) (options : Options)
    (fields : Fields) (answer : Answer) (before : List (Event S)) (silent : told before = []) :
    Accounted e (some s) false none
      ⟨answer, (e.log host s options fields).1, before ++ (e.log host s options fields).2⟩ where
  counts := by
    intro t
    have counted : (e.log host s options fields).1.counters.count t =
        if t = s then e.counters.count t + 1 else e.counters.count t := rfl
    rw [counted]
    rw [if_neg Bool.false_ne_true, Option.toList_some]
    by_cases same : t = s
    · rw [if_pos same, same, List.count_singleton_self]
    · have none : [s].count t = 0 := List.count_eq_zero.mpr fun member =>
        same (List.mem_singleton.mp member)
      rw [if_neg same, none, Nat.add_zero]
  informs := rfl
  tells := by
    rw [told_append, silent, told_log]
    rfl

theorem logRaw_accounted (e : Engine S W) (s : Severity) (options : Options)
    (data : Text.Bytes) : Accounted e none false none (answered (e.logRaw s options data)) := by
  refine .still rfl rfl ?_
  simp only [answered, logRaw, told_append, told_walk (deliverRaw_local s data), told_endings,
    List.append_nil]

theorem display_accounted (e : Engine S W) (s : Severity) (lines : List String) :
    Accounted e none false none (answered (e.display s lines)) :=
  .still rfl rfl (told_walk (deliverLines_local s lines) () e.instances)

theorem refused_accounted {e : Engine S W} (sound : Sound e) (c : Call S W) {error : Error}
    (refused : (c.outcome e).answer = .result (.error error)) :
    Accounted e (if c.isRefused e then some .error else none) false none (c.outcome e) := by
  have own : c.isRefused e = (error.isRefusal && (c.operation.fault? e).isNone) := by
    rw [Call.isRefused, refused]
  rw [own]
  cases outcome_refused sound c refused with
  | logged own kind same =>
    have closed : told ((c.operation.handed? e).map Event.closed).toList = [] := by
      cases c.operation.handed? e <;> rfl
    rw [kind, own, same]
    exact log_accounted c.host e .error .none (refusalFields error) _ _ closed
  | silent kind same =>
    have quiet : (error.isRefusal && (c.operation.fault? e).isNone) = false := by
      rcases kind with fails | ⟨_, type, rfl⟩
      · rw [fails, Option.isNone_some, Bool.and_false]
      · rfl
    rw [quiet, same]
    exact .still rfl rfl rfl

theorem result_accounted {e : Engine S W} (sound : Sound e) (c : Call S W)
    {result : Except Error Unit} (answer : (c.outcome e).answer = .result result) :
    Accounted e (if c.isRefused e then some .error else none) false none (c.outcome e) := by
  cases result with
  | error error => exact refused_accounted sound c answer
  | ok _ =>
    have granted : c.isRefused e = false := by rw [Call.isRefused, answer]
    obtain ⟨events, counters, informs, -⟩ := outcome_granted c answer
    rw [granted]
    exact .still counters informs (told_nothing (events ▸ List.forall_mem_nil _))

theorem outcome_accounted {e : Engine S W} (sound : Sound e) (c : Call S W) :
    Accounted e (c.counted? e) c.operation.resets c.operation.informs? (c.outcome e) := by
  rcases c with ⟨host, operation⟩
  cases operation with
  | startup app => exact result_accounted sound ⟨host, .startup app⟩ rfl
  | register type => exact result_accounted sound ⟨host, .register type⟩ rfl
  | add name type options handle =>
    exact result_accounted sound ⟨host, .add name type options handle⟩ rfl
  | openHandler surroundings name type options params =>
    exact result_accounted sound ⟨host, .openHandler surroundings name type options params⟩ rfl
  | remove name => exact .still rfl rfl (told_removals _)
  | shutdown => exact .still rfl rfl (told_removals _)
  | log severity options fields => exact log_accounted host e severity options fields .done [] rfl
  | logRaw severity options data => exact logRaw_accounted e severity options data
  | say severity text => exact logRaw_accounted e severity .none _
  | displayBytes data label => exact display_accounted e .debug _
  | displayDocument document label => exact display_accounted e .debug _
  | displayHex data label => exact display_accounted e .debug _
  | resetCounters => exact ⟨fun s => rfl, rfl, (ite_self []).symm⟩
  | setInforms informs => exact ⟨fun s => rfl, rfl, (ite_self []).symm⟩

/-- Between resets the counts grow by what is counted. -/
theorem after_counts {e : Engine S W} (sound : Sound e) (calls : List (Call S W))
    (going : ∀ c ∈ calls, c.operation.resets = false) (s : Severity) :
    (e.after calls).counters.count s = e.counters.count s + (countedIn e calls).count s := by
  induction calls generalizing e with
  | nil => rfl
  | cons c rest ih =>
    have step := (outcome_accounted sound c).counts s
    rw [going c List.mem_cons_self] at step
    have later := ih (outcome_sound e c sound) fun other member =>
      going other (List.mem_cons_of_mem c member)
    rw [after, later, step, if_neg Bool.false_ne_true, countedIn, List.count_append,
      Nat.add_assoc]

theorem no_message_of_isRefused {e : Engine S W} {c : Call S W} (refused : c.isRefused e = true) :
    c.operation.message? = none := by
  rcases c with ⟨host, operation⟩
  cases operation with
  | log severity options fields => cases refused
  | _ => rfl

theorem countedIn_count (e : Engine S W) (calls : List (Call S W)) (s : Severity) :
    (countedIn e calls).count s =
      (calls.filterMap fun c => c.operation.message?).count s +
        if s = .error then refusalsIn e calls else 0 := by
  induction calls generalizing e with
  | nil => simp only [countedIn, refusalsIn, List.filterMap_nil, List.count_nil, ite_self]
  | cons c rest ih =>
    rw [countedIn, List.count_append, ih, refusalsIn, List.filterMap_cons, Call.counted?]
    by_cases refused : c.isRefused e = true
    · rw [no_message_of_isRefused refused]
      by_cases error : s = .error
      · simp only [refused, error, ↓reduceIte, Option.toList_some, List.count_singleton_self]
        omega
      · simp only [refused, error, ↓reduceIte, Option.toList_some, List.count_singleton,
          beq_iff_eq, Ne.symm error, Nat.zero_add]
    · simp only [refused, Bool.false_eq_true, ↓reduceIte, Nat.zero_add]
      cases c.operation.message? with
      | none => simp only [Option.toList_none, List.count_nil, Nat.zero_add]
      | some t =>
        simp only [Option.toList_some, List.count_cons, List.count_nil]
        omega

theorem eventsOf_told {e : Engine S W} (sound : Sound e) (calls : List (Call S W)) :
    told (e.eventsOf calls) = tellingsIn e calls := by
  induction calls generalizing e with
  | nil => rfl
  | cons c rest ih =>
    rw [eventsOf, told_append, (outcome_accounted sound c).tells, ih (outcome_sound e c sound),
      tellingsIn]

theorem after_informs {e : Engine S W} (sound : Sound e) (calls : List (Call S W)) :
    (e.after calls).informs =
      ((calls.filterMap fun c => c.operation.informs?).getLast?).getD e.informs := by
  induction calls generalizing e with
  | nil => rfl
  | cons c rest ih =>
    rw [after, ih (outcome_sound e c sound), (outcome_accounted sound c).informs,
      List.filterMap_cons]
    cases c.operation.informs? with
    | none => rfl
    | some informs => rw [List.getLast?_cons, Option.getD_some, Option.getD_some]

omit [Handler S] in
theorem telling_next (counts : Severity → Nat) (counted : Option Severity) (s : Severity)
    {before : Nat} (grown : counts s = before + counted.toList.count s) :
    ((counted.toList.map fun t => (t, counts t)).filter fun telling => telling.1 = s).map Prod.snd =
      List.range' (before + 1) (counted.toList.count s) := by
  cases counted with
  | none => rfl
  | some t =>
    rw [Option.toList_some, List.map_singleton]
    by_cases same : t = s
    · subst same
      rw [Option.toList_some, List.count_singleton_self] at grown
      rw [List.filter_cons_of_pos (by simp), List.count_singleton_self, grown]
      rfl
    · have none : [t].count s = 0 := List.count_eq_zero.mpr fun member =>
        same (List.mem_singleton.mp member).symm
      rw [List.filter_cons_of_neg (by simpa using same), none]
      rfl

/-- While the caller wants to be told and nothing is set back, it is told one count of a severity
after the other. -/
theorem tellings_consecutive {e : Engine S W} (sound : Sound e) (calls : List (Call S W))
    (informs : e.informs = true)
    (steady : ∀ c ∈ calls, c.operation.resets = false ∧ c.operation.informs? ≠ some false)
    (s : Severity) :
    ((tellingsIn e calls).filter fun telling => telling.1 = s).map Prod.snd =
      List.range' (e.counters.count s + 1) ((countedIn e calls).count s) := by
  induction calls generalizing e with
  | nil => rfl
  | cons c rest ih =>
    have step := outcome_accounted sound c
    obtain ⟨going, staying⟩ := steady c List.mem_cons_self
    have still : (c.outcome e).engine.informs = true := by
      rw [step.informs, informs]
      cases said : c.operation.informs? with
      | none => rfl
      | some informs =>
        cases informs with
        | false => exact absurd said staying
        | true => rfl
    have grown := step.counts s
    rw [going, if_neg Bool.false_ne_true] at grown
    have now := telling_next _ (c.counted? e) s grown
    have later := ih (outcome_sound e c sound) still fun other member =>
      steady other (List.mem_cons_of_mem c member)
    rw [grown, Nat.add_right_comm] at later
    rw [tellingsIn, if_pos informs, List.filter_append, List.map_append, now, later,
      List.range'_append_1, countedIn, List.count_append]

omit [Handler S] in
theorem untilReset_last (calls : List (Call S W)) :
    untilReset calls = [] ∨
      ∃ earlier c, untilReset calls = earlier ++ [c] ∧ c.operation.resets = true := by
  induction calls using List.reverseRecOn with
  | nil => exact .inl rfl
  | append_singleton earlier c ih =>
    rw [untilReset, List.rdropWhile_concat]
    split
    · exact ih
    · next resets => exact .inr ⟨earlier, c, rfl, by simpa using resets⟩

/-- Right after the counts were set back, and before anything happens, all are zero. -/
theorem untilReset_count (d : Design S W) (calls : List (Call S W)) (s : Severity) :
    (d.run (untilReset calls)).counters.count s = 0 := by
  rcases untilReset_last calls with none | ⟨earlier, ⟨host, operation⟩, last, resets⟩
  · rw [none]
    rfl
  · rw [last, Design.run, after_append]
    cases operation with
    | resetCounters => rfl
    | _ => cases resets

theorem run_count (d : Design S W) (calls : List (Call S W)) (s : Severity) :
    (d.run calls).counters.count s =
      (countedIn (d.run (untilReset calls)) (sinceReset calls)).count s := by
  have split : untilReset calls ++ sinceReset calls = calls :=
    List.rdropWhile_append_rtakeWhile
  have going : ∀ c ∈ sinceReset calls, c.operation.resets = false := by
    intro c member
    simpa using List.mem_rtakeWhile_imp member
  have grown := after_counts (run_sound d (untilReset calls)) (sinceReset calls) going s
  rw [untilReset_count, Nat.zero_add] at grown
  rw [← grown, Design.run, Design.run, ← after_append, split]

/-- After any run the count of a severity is the number of its messages since the counts were last
set back, and for errors also of the operations that the engine itself refused; the report has all
counts by rank, and their sum as the total. No other call changes a count. The caller is told of all
that was counted while it wanted to be told, in order, each with the count right after it, and of
nothing else; and so as long as it goes on wanting to be told and nothing is set back, it is told
one count of a severity after the other. -/
theorem run_counts (d : Design S W) (calls : List (Call S W)) :
    let e := d.run calls
    (∀ s, e.counters.count s =
      ((sinceReset calls).filterMap fun c => c.operation.message?).count s +
        if s = .error then refusalsIn (d.run (untilReset calls)) (sinceReset calls) else 0) ∧
    (e.counters.report.map (fun entry => entry.1.index) = List.range 10 ∧
      (∀ s, (s, e.counters.count s) ∈ e.counters.report) ∧
      e.counters.total = e.counters.report.foldr (fun entry sum => entry.2 + sum) 0) ∧
    (∀ c : Call S W, c.operation.message? = none → c.operation.resets = false →
      c.isRefused e = false → ∀ s, (c.outcome e).engine.counters.count s = e.counters.count s) ∧
    e.informs = ((calls.filterMap fun c => c.operation.informs?).getLast?).getD false ∧
    told (d.engine.eventsOf calls) = tellingsIn d.engine calls ∧
    ∀ more : List (Call S W), e.informs = true →
      (∀ c ∈ more, c.operation.resets = false ∧ c.operation.informs? ≠ some false) →
      ∀ s, ((told (e.eventsOf more)).filter fun telling => telling.1 = s).map Prod.snd =
        List.range' (e.counters.count s + 1) ((countedIn e more).count s) := by
  intro e
  have sound : Sound e := run_sound d calls
  refine ⟨?_, ⟨e.counters.report_ranks, e.counters.mem_report, e.counters.total_report⟩, ?_,
    after_informs (new_sound d) calls, eventsOf_told (new_sound d) calls, ?_⟩
  · intro s
    rw [run_count, countedIn_count]
  · intro c noMessage noReset granted s
    have counts := (outcome_accounted sound c).counts s
    rw [noReset, Call.counted?, granted, noMessage] at counts
    exact counts
  · intro more informs steady s
    rw [eventsOf_told sound more]
    exact tellings_consecutive sound more informs steady s

/-- A second start is refused, and so is a third; the errors are counted on from the reset. -/
theorem refused_starts_counted :
    let start : Operation Sink Unit := .startup ⟨"app", "1", "program"⟩
    let calls : List (Call Sink Unit) :=
      [.setInforms true, start, .log .info .none [], .resetCounters, start].map (Call.mk bareHost)
    let more : List (Call Sink Unit) :=
      [.log .error .none [], .say .error "text", start].map (Call.mk bareHost)
    let e := memoryDesign.run calls
    e.counters.count .error = 1 ∧
      told (memoryDesign.engine.eventsOf calls) = [(.info, 1), (.error, 1)] ∧
      ((Call.mk bareHost (.say .error "text")).outcome e).engine.counters.count .error = 1 ∧
      ((told (e.eventsOf more)).filter fun telling => telling.1 = .error).map Prod.snd =
        [2, 3] := by
  intro start calls more e
  obtain ⟨counts, _, still, _, tellings, consecutive⟩ := run_counts memoryDesign calls
  have steady : ∀ c ∈ more, c.operation.resets = false ∧ c.operation.informs? ≠ some false := by
    decide
  exact ⟨counts .error, tellings, still ⟨bareHost, .say .error "text"⟩ rfl rfl rfl .error,
    consecutive more rfl steady .error⟩

end Engine

end StructuredLog
