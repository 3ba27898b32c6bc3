import StructuredLog.Json.Reader
import StructuredLog.Proofs.Json.Structure

/-!
What a reader gives. A property of documents that passes from the parts of a container to the
container, with one level of nesting for each, holds of all that is read: containers are only put
together of values that were read before, and never more than so many are open. So documents that
were read are not too deep, and the keys of their objects are distinct.
-/

namespace StructuredLog.Json

/-- A property of documents, for every number of levels that there is room for. -/
structure Hereditary (Q : Nat → Value → Prop) : Prop where
  scalar : ∀ room v, v.isScalar = true → Q room v
  array : ∀ room items, (∀ v ∈ items, Q room v) → Q (room + 1) (.arr items)
  object : ∀ room members, (Table.keys members).Nodup → (∀ entry ∈ members, Q room entry.2) →
    Q (room + 1) (.obj members)
  roomier : ∀ room more v, room ≤ more → Q room v → Q more v

variable {Q : Nat → Value → Prop}

structure MembersHold (Q : Nat → Value → Prop) (room : Nat) (members : Members) : Prop where
  keys : (Table.keys members).Nodup
  each : ∀ entry ∈ members, Q room entry.2

def Frame.Holds (Q : Nat → Value → Prop) (room : Nat) : Frame → Prop
  | .list items => ∀ v ∈ items, Q room v
  | .object members => MembersHold Q room members
  | .member members _ => MembersHold Q room members

/-- Every open container has room for as many levels as may still be opened inside it. -/
def FramesHold (Q : Nat → Value → Prop) : List Frame → Prop
  | [] => True
  | frame :: rest =>
      rest.length < maxOpen ∧ frame.Holds Q (maxOpen - (rest.length + 1)) ∧ FramesHold Q rest

def Mode.Holds (Q : Nat → Value → Prop) : Mode → Prop
  | .done v => Q maxOpen v
  | .word _ _ v => v.isScalar = true
  | _ => True

structure State.Holds (Q : Nat → Value → Prop) (state : State) : Prop where
  frames : FramesHold Q state.frames
  mode : state.mode.Holds Q

def Step.Holds (Q : Nat → Value → Prop) (step : Step) : Prop :=
  ∀ state, step = .ok state → state.Holds Q

theorem holds_ok {state : State} (held : state.Holds Q) : Step.Holds Q (.ok state) := by
  rintro next same
  cases same
  exact held

theorem holds_error (stop : Stop) : Step.Holds Q (.error stop) := by
  rintro next same
  cases same

theorem MembersHold.put {room : Nat} {members : Members} (held : MembersHold Q room members)
    (key : String) {v : Value} (own : Q room v) : MembersHold Q room (Table.put key v members) where
  keys := Table.nodup_keys_put key v members held.keys
  each := by
    intro entry member
    rcases Table.mem_put member with same | old
    · rw [same]
      exact own
    · exact held.each entry old

theorem settle_holds (hereditary : Hereditary Q) {frames : List Frame} (held : FramesHold Q frames)
    {v : Value} (own : Q (maxOpen - frames.length) v) : (settle frames v).Holds Q := by
  cases frames with
  | nil => exact ⟨trivial, own⟩
  | cons frame rest =>
    obtain ⟨room, inside, others⟩ := held
    cases frame with
    | list items =>
      exact ⟨⟨room, List.forall_mem_cons.mpr ⟨own, inside⟩, others⟩, trivial⟩
    | object members =>
      exact ⟨⟨room, inside, others⟩, hereditary.roomier _ _ v (Nat.sub_le _ _) own⟩
    | member members key => exact ⟨⟨room, inside.put key own, others⟩, trivial⟩

theorem openContainer_holds {frames : List Frame} (held : FramesHold Q frames) {frame : Frame}
    (empty : ∀ room, frame.Holds Q room) {mode : Mode} (between : mode.Holds Q) :
    Step.Holds Q (openContainer frames frame mode) := by
  unfold openContainer
  split
  · next room => exact holds_ok ⟨⟨room, empty _, held⟩, between⟩
  · exact holds_error _

theorem beginValue_holds {frames : List Frame} (held : FramesHold Q frames) (c : Char) :
    Step.Holds Q (beginValue frames c) := by
  have noItems : ∀ room, (Frame.list []).Holds Q room := by
    intro room v member
    cases member
  have noMembers : ∀ room, (Frame.object []).Holds Q room := by
    intro room
    refine ⟨List.nodup_nil, ?_⟩
    intro entry member
    cases member
  unfold beginValue
  split
  · exact holds_ok ⟨held, rfl⟩
  · exact holds_ok ⟨held, rfl⟩
  · exact holds_ok ⟨held, rfl⟩
  · exact holds_ok ⟨held, trivial⟩
  · exact holds_ok ⟨held, trivial⟩
  · exact openContainer_holds held noItems trivial
  · exact openContainer_holds held noMembers trivial
  · exact holds_ok ⟨held, trivial⟩
  · split
    · exact holds_ok ⟨held, trivial⟩
    · exact holds_error _

theorem closeList_holds (hereditary : Hereditary Q) {frames : List Frame}
    (held : FramesHold Q frames) : Step.Holds Q (closeList frames) := by
  unfold closeList
  split
  · next items rest =>
    obtain ⟨room, inside, others⟩ := held
    apply holds_ok
    apply settle_holds hereditary others
    have whole := hereditary.array _ items.reverse
      (fun v member => inside v (List.mem_reverse.mp member))
    have levels : maxOpen - (rest.length + 1) + 1 = maxOpen - rest.length := by omega
    exact levels ▸ whole
  · exact holds_error _

theorem closeObject_holds (hereditary : Hereditary Q) {frames : List Frame}
    (held : FramesHold Q frames) : Step.Holds Q (closeObject frames) := by
  unfold closeObject
  split
  · next members rest =>
    obtain ⟨room, inside, others⟩ := held
    apply holds_ok
    apply settle_holds hereditary others
    have whole := hereditary.object _ members inside.keys inside.each
    have levels : maxOpen - (rest.length + 1) + 1 = maxOpen - rest.length := by omega
    exact levels ▸ whole
  · exact holds_error _

theorem between_holds (hereditary : Hereditary Q) {frames : List Frame}
    (held : FramesHold Q frames) (mode : Mode) (c : Char) :
    Step.Holds Q (between frames mode c) := by
  have begins := beginValue_holds held c
  have key : State.Holds Q ⟨frames, .string .key [] .none⟩ := ⟨held, trivial⟩
  unfold between
  split
  · split
    · exact closeList_holds hereditary held
    · exact begins
  · split
    · exact holds_error _
    · exact begins
  · split
    · exact holds_ok ⟨held, trivial⟩
    · split
      · exact closeList_holds hereditary held
      · exact holds_error _
  · split
    · exact closeObject_holds hereditary held
    · split
      · exact holds_ok key
      · exact holds_error _
  · split
    · exact holds_ok key
    · split
      · exact holds_error _
      · exact holds_error _
  · split
    · exact holds_ok ⟨held, trivial⟩
    · exact holds_error _
  · split
    · exact holds_ok ⟨held, trivial⟩
    · split
      · exact closeObject_holds hereditary held
      · exact holds_error _
  · exact holds_error _
  · exact begins

theorem wholeValue_scalar {negative : Bool} {units : Nat} {v : Value}
    (same : wholeValue negative units = .ok v) : v.isScalar = true := by
  unfold wholeValue at same
  simp only at same
  split at same
  · cases same
    rfl
  · split at same
    · cases same
      rfl
    · cases same

theorem realValue_scalar {negative : Bool} {units : Nat} {power : Int} {v : Value}
    (same : realValue negative units power = .ok v) : v.isScalar = true := by
  unfold realValue at same
  split at same
  · cases same
    rfl
  · cases same

theorem partValue_scalar {part : NumberPart} {v : Value} (same : part.value = .ok v) :
    v.isScalar = true := by
  cases part with
  | sign => cases same
  | leadingZero negative => exact wholeValue_scalar same
  | whole negative units => exact wholeValue_scalar same
  | long negative units dropped => exact realValue_scalar same
  | point negative units power => cases same
  | fraction negative units power => exact realValue_scalar same
  | surplus negative units power => exact realValue_scalar same
  | exponentMark negative units power => cases same
  | exponentSign negative units power below => cases same
  | exponent negative units power below size => exact realValue_scalar same
  | vanishing negative => exact realValue_scalar same

theorem inNumber_holds (hereditary : Hereditary Q) {frames : List Frame}
    (held : FramesHold Q frames) (part : NumberPart) (c : Char) :
    Step.Holds Q (inNumber frames part c) := by
  unfold inNumber
  split
  · exact holds_error _
  · exact holds_ok ⟨held, trivial⟩
  · split
    · exact holds_error _
    · next v same =>
      have settled := settle_holds hereditary held
        (hereditary.scalar _ v (partValue_scalar same))
      simp only
      split
      · exact holds_ok settled
      · exact between_holds hereditary settled.frames _ c

theorem endString_holds (hereditary : Hereditary Q) {frames : List Frame}
    (held : FramesHold Q frames) (role : Role) (s : String) :
    (endString frames role s).Holds Q := by
  unfold endString
  split
  · obtain ⟨room, inside, others⟩ := held
    exact ⟨⟨room, inside, others⟩, trivial⟩
  · exact settle_holds hereditary held (hereditary.scalar _ (.str s) rfl)

theorem inString_holds (hereditary : Hereditary Q) {frames : List Frame}
    (held : FramesHold Q frames) (role : Role) (read : List Char) (escape : Escape) (c : Char) :
    Step.Holds Q (inString frames role read escape c) := by
  have stays : ∀ read escape, Step.Holds Q (.ok ⟨frames, .string role read escape⟩) := by
    intro read escape
    exact holds_ok ⟨held, trivial⟩
  unfold inString
  simp only
  split
  · split
    · exact holds_ok (endString_holds hereditary held role _)
    · split
      · exact stays _ _
      · split
        · exact holds_error _
        · exact stays _ _
  · split
    · exact stays _ _
    · split
      · exact stays _ _
      · exact holds_error _
  · split
    · exact stays _ _
    · split
      · exact holds_error _
      · split
        · exact holds_error _
        · exact stays _ _
  · split
    · exact stays _ _
    · exact holds_error _
  · split
    · exact stays _ _
    · exact holds_error _

theorem step_holds (hereditary : Hereditary Q) {state : State} (held : state.Holds Q) (c : Char) :
    Step.Holds Q (state.step c) := by
  rcases state with ⟨frames, mode⟩
  obtain ⟨inside, own⟩ := held
  unfold State.step
  simp only
  split
  · next next left v =>
    split
    · split
      · exact holds_ok (settle_holds hereditary inside (hereditary.scalar _ v own))
      · exact holds_ok ⟨inside, own⟩
    · exact holds_error _
  · exact inNumber_holds hereditary inside _ c
  · exact inString_holds hereditary inside _ _ _ c
  · split
    · exact holds_ok ⟨inside, own⟩
    · exact between_holds hereditary inside _ c

theorem finish_holds (hereditary : Hereditary Q) {state : State} (held : state.Holds Q) {v : Value}
    (finished : state.finish = .ok v) : Q maxOpen v := by
  rcases state with ⟨frames, mode⟩
  obtain ⟨inside, own⟩ := held
  cases mode with
  | done w =>
    cases finished
    exact own
  | number part =>
    simp only [State.finish] at finished
    split at finished
    · cases finished
    · next w same =>
      have settled := settle_holds hereditary inside
        (hereditary.scalar _ w (partValue_scalar same))
      split at finished
      · next u mode =>
        cases finished
        have whole := settled.mode
        rw [mode] at whole
        exact whole
      · cases finished
      · cases finished
  | _ => cases finished

theorem read_holds (hereditary : Hereditary Q) {text : List Char} {v : Value}
    (same : read text = .ok v) : Q maxOpen v := by
  have run : ∀ (state : State) (position : Position), state.Holds Q →
      readFrom state position text = .ok v → Q maxOpen v := by
    clear same
    induction text with
    | nil =>
      intro state position held finished
      rw [readFrom] at finished
      split at finished
      · next w ends =>
        cases finished
        exact finish_holds hereditary held ends
      · cases finished
    | cons c rest ih =>
      intro state position held goes
      rw [readFrom] at goes
      split at goes
      · cases goes
      · next next steps => exact ih next _ (step_holds hereditary held c next steps) goes
  have begun : State.Holds Q ⟨[], .value⟩ := ⟨trivial, trivial⟩
  exact run _ _ begun same

theorem read_depth {text : List Char} {v : Value} (same : read text = .ok v) :
    v.depth ≤ maxOpen := by
  apply read_holds (Q := fun room v => v.depth ≤ room) ?_ same
  refine ⟨?_, ?_, ?_, ?_⟩
  · intro room v scalar
    rw [depth_scalar scalar]
    exact Nat.zero_le room
  · intro room items each
    exact Nat.succ_le_succ (itemsDepth_le.mpr each)
  · intro room members _ each
    exact Nat.succ_le_succ (membersDepth_le.mpr each)
  · intro room more v le own
    exact Nat.le_trans own le

theorem read_distinct {text : List Char} {v : Value} (same : read text = .ok v) : v.Distinct := by
  apply read_holds (Q := fun _ v => v.Distinct) ?_ same
  exact ⟨fun _ _ scalar => .scalar scalar, fun _ _ each => .arr each,
    fun _ _ keys each => .obj keys each, fun _ _ _ _ own => own⟩

end StructuredLog.Json
