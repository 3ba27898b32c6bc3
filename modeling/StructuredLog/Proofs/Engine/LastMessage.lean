import StructuredLog.Proofs.Engine.Counting
import StructuredLog.Proofs.Text.Utf8

/-!
What is remembered. The last message is the beginning of a text: of the last one among the fields of
the latest message that had any, where what the engine itself refuses is a message too. Nothing else
changes it.
-/

namespace StructuredLog

namespace Record

def messageText? : String × FieldValue → Option String
  | (key, .str s) => if key = "msg" then some s else none
  | _ => none

/-- The last of the texts among fields; what is no string does not hide it. -/
def lastText? (fields : Fields) : Option String := (fields.filterMap messageText?).getLast?

example : lastText? [("msg", .str "a"), ("msg", .int 1), ("code", .str "b")] = some "a" := rfl

theorem message?_eq (fields : Fields) : fields.message? = lastText? fields := by
  induction fields with
  | nil => rfl
  | cons field rest ih =>
    rcases field with ⟨key, value⟩
    rw [lastText?, List.filterMap_cons]
    rw [lastText?] at ih
    cases text : messageText? (key, value) with
    | none =>
      simp only [← ih]
      cases later : Fields.message? rest with
      | some s => simp only [Fields.message?, later]
      | none =>
        cases value with
        | str s =>
          have other : ¬key = Fields.messageKey := by
            intro same
            simp only [messageText?, ite_eq_right_iff, reduceCtorEq, imp_false] at text
            exact text same
          simp only [Fields.message?, later, other, ↓reduceIte]
        | _ => simp only [Fields.message?, later]
    | some s =>
      cases value with
      | str own =>
        obtain ⟨same, given⟩ := Option.ite_none_right_eq_some.mp text
        cases given
        simp only [Fields.message?, ih, List.getLast?_cons]
        cases (rest.filterMap messageText?).getLast? with
        | none => exact if_pos same
        | some later => rfl
      | _ => cases text

end Record

namespace Engine

open Record (Fields lastText?)

variable {S W : Type} [Handler S]

/-- What is kept of a text as the last message, up to 256 bytes of it; where there is no text, the
old one stays. -/
def Remembers (text : Option String) (old new : String) : Prop :=
  match text with
  | none => new = old
  | some text => Text.LongestFit 256 text.toList new.toList

theorem log_remembers (host : Host) (e : Engine S W) (s : Severity) (options : Options)
    (fields : Fields) :
    Remembers (lastText? fields) e.lastMessage (e.log host s options fields).1.lastMessage := by
  rw [← Record.message?_eq]
  unfold Engine.log
  simp only
  cases fields.message? with
  | none => rfl
  | some text =>
    have fits := Text.clip_fits messageCapacity text.toList
    rw [Remembers, String.toList_ofList]
    exact fits

/-- The fields of the message that a call logs: those that it comes with, or those of the error that
it is refused with. -/
def Call.logged? (c : Call S W) (e : Engine S W) : Option Fields :=
  match c.operation, (c.outcome e).answer with
  | .log _ _ fields, _ => some fields
  | _, .result (.error error) => if c.isRefused e then some (refusalFields error) else none
  | _, _ => none

def loggedIn (e : Engine S W) : List (Call S W) → List Fields
  | [] => []
  | c :: rest => (c.logged? e).toList ++ loggedIn (c.outcome e).engine rest

theorem logged?_refused {e : Engine S W} {c : Call S W} {error : Error}
    (refused : (c.outcome e).answer = .result (.error error)) :
    c.logged? e = if c.isRefused e then some (refusalFields error) else none := by
  rcases c with ⟨host, operation⟩
  cases operation with
  | log severity options fields => cases refused
  | _ => rw [Call.logged?, refused]

theorem refused_remembers {e : Engine S W} (sound : Sound e) (c : Call S W) {error : Error}
    (refused : (c.outcome e).answer = .result (.error error)) :
    Remembers ((c.logged? e).bind lastText?) e.lastMessage (c.outcome e).engine.lastMessage := by
  have own : c.isRefused e = (error.isRefusal && (c.operation.fault? e).isNone) := by
    rw [Call.isRefused, refused]
  rw [logged?_refused refused, own]
  cases outcome_refused sound c refused with
  | logged own kind same =>
    rw [kind, own, same]
    exact log_remembers c.host e .error .none (refusalFields error)
  | silent kind same =>
    have quiet : (error.isRefusal && (c.operation.fault? e).isNone) = false := by
      rcases kind with fails | ⟨_, type, rfl⟩
      · rw [fails, Option.isNone_some, Bool.and_false]
      · rfl
    rw [quiet, same]
    rfl

theorem outcome_remembers {e : Engine S W} (sound : Sound e) (c : Call S W) :
    Remembers ((c.logged? e).bind lastText?) e.lastMessage (c.outcome e).engine.lastMessage := by
  cases answer : (c.outcome e).answer with
  | result result =>
    cases result with
    | error error => exact refused_remembers sound c answer
    | ok _ =>
      have none : c.logged? e = none := by
        rcases c with ⟨host, operation⟩
        cases operation with
        | log severity options fields => cases answer
        | _ => rw [Call.logged?, answer]
      rw [none]
      exact (outcome_granted c answer).lastMessage
  | _ =>
    rcases c with ⟨host, operation⟩
    cases operation with
    | log severity options fields => exact log_remembers host e severity options fields
    | _ => first | rfl | cases answer

omit [Handler S] in
/-- Of two texts the later one counts. -/
theorem Remembers.trans {first second : Option String} {old between new : String}
    (before : Remembers first old between) (after : Remembers second between new) :
    Remembers (second.or first) old new := by
  cases second with
  | none =>
    obtain rfl : new = between := after
    exact before
  | some text => exact after

theorem after_remembers {e : Engine S W} (sound : Sound e) (calls : List (Call S W)) :
    Remembers ((loggedIn e calls).filterMap lastText?).getLast? e.lastMessage
      (e.after calls).lastMessage := by
  induction calls generalizing e with
  | nil => rfl
  | cons c rest ih =>
    have own : ((c.logged? e).toList.filterMap lastText?).getLast? =
        (c.logged? e).bind lastText? := by
      cases c.logged? e with
      | none => rfl
      | some fields =>
        rw [Option.toList_some, List.filterMap_cons, Option.bind_some]
        cases lastText? fields <;> rfl
    rw [loggedIn, List.filterMap_append, List.getLast?_append, own]
    exact (outcome_remembers sound c).trans (ih (outcome_sound e c sound))

/-- After any run the last message is the longest beginning, in whole characters and at most 256
bytes, of the last text among the fields of the latest message that had one, and empty when there
was none. A message counts whether anybody gets it or not, and so does an error by which the engine
itself refuses; every other call leaves the last message as it is. -/
theorem run_lastMessage (d : Design S W) (calls : List (Call S W)) :
    let e := d.run calls
    Remembers ((loggedIn d.engine calls).filterMap lastText?).getLast? "" e.lastMessage ∧
      ∀ c : Call S W,
        Remembers ((c.logged? e).bind lastText?) e.lastMessage (c.outcome e).engine.lastMessage :=
  ⟨after_remembers (new_sound d) calls, fun c => outcome_remembers (run_sound d calls) c⟩

end Engine

end StructuredLog
