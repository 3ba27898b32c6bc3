import StructuredLog.Proofs.Config.Inside
import StructuredLog.Proofs.Config.Scan

/-!
Replacing variables comes to an end, and what it ends with stays. A round replaces the first name in
a scan of the text that has a value. There are at most as many rounds as are allowed; where no name
of a scan has a value the text is finished, so that replacing variables again changes nothing, in a
text or inside the strings and keys of a document.
-/

namespace StructuredLog.Config

open Json (Value Members)

def Finds (vars : Members) (text name : List Char) (v : Value) : Prop :=
  ∃ before after, variableMarks.Scan text (before ++ name :: after) ∧
    (∀ other ∈ before, Table.get? (String.ofList other) vars = none) ∧
    Table.get? (String.ofList name) vars = some v

def Finished (vars : Members) (text : List Char) : Prop :=
  ∃ names, variableMarks.Scan text names ∧
    ∀ name ∈ names, Table.get? (String.ofList name) vars = none

/-- One round: the first name that has a value is replaced wherever it is called, unless its value
calls it too. -/
inductive Round (vars : Members) (text : List Char) : List Char → Prop where
  | intro {name : List Char} {v : Value} (finds : Finds vars text name v)
      (free : ¬variableMarks.around name <:+: rendered v) :
      Round vars text (Text.replaceAll (variableMarks.around name) (rendered v) text)

inductive Steps {α : Type} (Step : α → α → Prop) : Nat → α → α → Prop where
  | none (a : α) : Steps Step 0 a a
  | more {count : Nat} {a next last : α} (step : Step a next) (later : Steps Step count next last) :
      Steps Step (count + 1) a last

/-- How it ends after so many rounds: with a finished text, at a variable whose value calls it, or
where another round is not allowed. -/
inductive Ends (vars : Members) (allowed rounds : Nat) (last : List Char) :
    Except Error (List Char) → Prop where
  | finished (finished : Finished vars last) : Ends vars allowed rounds last (.ok last)
  | circular {name : List Char} {v : Value} (finds : Finds vars last name v)
      (calls : variableMarks.around name <:+: rendered v) :
      Ends vars allowed rounds last
        (.error (.badTemplate (.selfReference (String.ofList (variableMarks.around name)))))
  | exhausted (all : rounds = allowed) (goesOn : ∃ next, Round vars last next) :
      Ends vars allowed rounds last
        (.error (.badTemplate (.tooManySubstitutions maxSubstitutions)))

variable {vars : Members}

theorem firstDefined?_some {text name : List Char} {v : Value}
    (found : firstDefined? vars text = some (name, v)) : Finds vars text name v := by
  obtain ⟨before, other, after, split, own, unknown⟩ := List.findSome?_eq_some_iff.mp found
  obtain ⟨w, known, same⟩ := Option.map_eq_some_iff.mp own
  cases same
  refine ⟨before, after, ?_, fun n member => Option.map_eq_none_iff.mp (unknown n member), known⟩
  rw [← split]
  exact Marks.scan_names (List.cons_ne_nil _ _) text

theorem firstDefined?_none {text : List Char} :
    firstDefined? vars text = none ↔ Finished vars text := by
  have scan := Marks.scan_names (show variableMarks.closing ≠ [] from List.cons_ne_nil _ _) text
  rw [firstDefined?, List.findSome?_eq_none_iff]
  simp only [Option.map_eq_none_iff]
  constructor
  · exact fun unknown => ⟨_, scan, unknown⟩
  · rintro ⟨names, other, unknown⟩
    rw [scan.unique other]
    exact unknown

theorem Ends.more {allowed rounds : Nat} {last : List Char} {result : Except Error (List Char)}
    (ends : Ends vars allowed rounds last result) :
    Ends vars (allowed + 1) (rounds + 1) last result := by
  cases ends with
  | finished finished => exact .finished finished
  | circular finds calls => exact .circular finds calls
  | exhausted all goesOn => exact .exhausted (congrArg (· + 1) all) goesOn

theorem Finished.same {text : List Char} (finished : Finished vars text) (left : Nat) :
    substituteAtMost vars left text = .ok text := by
  rw [substituteAtMost, firstDefined?_none.mpr finished]

/-- What one look at a text does: a finished text is answered, a variable whose value calls it is
refused, and otherwise there is another round if one is left. -/
theorem substituteAtMost_look (vars : Members) (left : Nat) (text : List Char) :
    (Finished vars text ∧ substituteAtMost vars left text = .ok text) ∨
      (∃ name v, Finds vars text name v ∧ variableMarks.around name <:+: rendered v ∧
        substituteAtMost vars left text =
          .error (.badTemplate (.selfReference (String.ofList (variableMarks.around name))))) ∨
      ∃ next, Round vars text next ∧ substituteAtMost vars left text =
        match left with
        | 0 => .error (.badTemplate (.tooManySubstitutions maxSubstitutions))
        | left + 1 => substituteAtMost vars left next := by
  cases found : firstDefined? vars text with
  | none =>
    have finished := firstDefined?_none.mp found
    exact .inl ⟨finished, finished.same left⟩
  | some first =>
    rcases first with ⟨name, v⟩
    have finds := firstDefined?_some found
    by_cases calls : Text.occurs (variableMarks.around name) (rendered v) = true
    · refine .inr (.inl ⟨name, v, finds, Text.occurs_iff.mp calls, ?_⟩)
      rw [substituteAtMost, found]
      exact if_pos calls
    · refine .inr (.inr ⟨_, .intro finds (mt Text.occurs_iff.mpr calls), ?_⟩)
      cases left with
      | zero | succ left =>
        rw [substituteAtMost, found]
        exact if_neg calls

theorem substituteAtMost_ends (vars : Members) (allowed : Nat) (text : List Char) :
    ∃ rounds last, rounds ≤ allowed ∧ Steps (Round vars) rounds text last ∧
      Ends vars allowed rounds last (substituteAtMost vars allowed text) := by
  induction allowed generalizing text with
  | zero =>
    refine ⟨0, text, Nat.le_refl 0, .none text, ?_⟩
    rcases substituteAtMost_look vars 0 text with
      ⟨finished, same⟩ | ⟨name, v, finds, calls, same⟩ | ⟨next, round, same⟩
    · exact same ▸ .finished finished
    · exact same ▸ .circular finds calls
    · exact same ▸ .exhausted rfl ⟨next, round⟩
  | succ allowed ih =>
    rcases substituteAtMost_look vars (allowed + 1) text with
      ⟨finished, same⟩ | ⟨name, v, finds, calls, same⟩ | ⟨next, round, same⟩
    · exact ⟨0, text, Nat.zero_le _, .none text, same ▸ .finished finished⟩
    · exact ⟨0, text, Nat.zero_le _, .none text, same ▸ .circular finds calls⟩
    · obtain ⟨rounds, last, few, later, ends⟩ := ih next
      refine ⟨rounds + 1, last, Nat.succ_le_succ few, .more round later, ?_⟩
      exact same ▸ ends.more

theorem substitute_finished {text out : List Char} (done : substitute vars text = .ok out) :
    Finished vars out ∧ substitute vars out = .ok out := by
  obtain ⟨rounds, last, -, -, ends⟩ := substituteAtMost_ends vars maxSubstitutions text
  rw [← substitute, done] at ends
  cases ends with
  | finished finished => exact ⟨finished, finished.same maxSubstitutions⟩

theorem substituteString_same {s t : String} (done : substituteString vars s = .ok t) :
    substituteString vars t = .ok t := by
  obtain ⟨out, own, rfl⟩ := map_ok done
  rw [substituteString, String.toList_ofList, (substitute_finished own).2]
  rfl

/-- What becomes of a document by replacing its strings and keys stays when that is done again. -/
theorem Replaced.same {v w : Value} (replaced : Replaced vars v w) : Replaced vars w w := by
  induction replaced with
  | null => exact .null
  | bool b => exact .bool b
  | num n => exact .num n
  | str own => exact .str (substituteString_same own)
  | @arr items results length each ih =>
    refine .arr rfl fun i w other here there => ?_
    rw [here] at there
    cases there
    obtain ⟨j, v, own, source⟩ := exists_beside length.symm (List.mem_of_getElem? here)
    exact ih j v w source own
  | @obj members renamed result length keys each collects ih =>
    -- Every member that stays was put in as one of the renamed members, beside an old one.
    have source : ∀ new ∈ result, ∃ (i : Nat) (old : String × Value),
        renamed[i]? = some new ∧ members[i]? = some old := fun new member =>
      exists_beside length.symm (collects.mem member)
    refine .obj rfl (fun i new other here there => ?_) (fun i new other here there => ?_)
      (.self collects.nodup)
    all_goals
      rw [here] at there
      cases there
      obtain ⟨j, old, own, beside⟩ := source new (List.mem_of_getElem? here)
    · exact substituteString_same (keys j old new beside own)
    · exact ih j old new beside own

/-- Replacing variables in a text ends within the rounds that are allowed. An answer has no name
with a value, and to replace variables in it again changes nothing, in a text or inside the strings
and keys of a document. -/
theorem substitute_settles (vars : Members) :
    (∀ text, ∃ rounds last, rounds ≤ maxSubstitutions ∧ Steps (Round vars) rounds text last ∧
        Ends vars maxSubstitutions rounds last (substitute vars text)) ∧
      (∀ text out, substitute vars text = .ok out →
        Finished vars out ∧ substitute vars out = .ok out) ∧
      ∀ v w, replaceVariables .tree vars v = .ok w → replaceVariables .tree vars w = .ok w :=
  ⟨substituteAtMost_ends vars maxSubstitutions, fun _ _ done => substitute_finished done,
    fun _ _ done => (substituteTree_replaced done).same.substituteTree⟩

def fragments : Members := [("a", .str "(^^b"), ("b", .str "x")]

/-- A name that comes about by replacing another one is replaced as well, and an unknown one
stays. -/
theorem fragments_settle :
    substitute fragments "(^^a^^)^^) (^^c^^)".toList = .ok "x (^^c^^)".toList ∧
      Finished fragments "x (^^c^^)".toList ∧
      substitute fragments "x (^^c^^)".toList = .ok "x (^^c^^)".toList ∧
      replaceVariables .tree fragments (.obj [("(^^b^^)", .null)]) = .ok (.obj [("x", .null)]) ∧
      replaceVariables .tree fragments (.obj [("x", .null)]) = .ok (.obj [("x", .null)]) := by
  obtain ⟨-, texts, documents⟩ := substitute_settles fragments
  have text : substitute fragments "(^^a^^)^^) (^^c^^)".toList = .ok "x (^^c^^)".toList := by rfl
  have document : replaceVariables .tree fragments (.obj [("(^^b^^)", .null)]) =
      .ok (.obj [("x", .null)]) := by rfl
  obtain ⟨finished, same⟩ := texts _ _ text
  exact ⟨text, finished, same, document, documents _ _ document⟩

end StructuredLog.Config
