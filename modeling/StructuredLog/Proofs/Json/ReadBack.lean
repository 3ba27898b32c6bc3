import StructuredLog.Json.Printer
import StructuredLog.Proofs.Json.Reading
import StructuredLog.Proofs.Json.Written

/-!
The reader takes back what was written, on one line or on many. A reader that stands before a value
and is given the text of one comes to stand where the value is settled; where a list of members has
a key twice, the later value is read into the place of the first. Only whole numbers are written
here.
-/

namespace StructuredLog.Json

inductive Value.Whole : Value → Prop where
  | null : Whole .null
  | bool (b : Bool) : Whole (.bool b)
  | integer (n : Integer) : Whole (.num (.integer n))
  | str (s : String) : Whole (.str s)
  | arr {items : List Value} (each : ∀ v ∈ items, Whole v) : Whole (.arr items)
  | obj {members : List (String × Value)} (each : ∀ entry ∈ members, Whole entry.2) :
      Whole (.obj members)

mutual

/-- Of members under one key the last value stays, at the place of the first. -/
def Value.collapsed : Value → Value
  | .arr items => .arr (collapsedItems items)
  | .obj members => .obj (collapsedMembers [] members)
  | v => v

def collapsedItems : List Value → List Value
  | [] => []
  | v :: rest => v.collapsed :: collapsedItems rest

def collapsedMembers (done : Members) : List (String × Value) → Members
  | [] => done
  | (key, v) :: rest => collapsedMembers (Table.put key v.collapsed done) rest

end

/-- From a state on, a text ends in a document. -/
def State.Gives (state : State) (text : List Char) (v : Value) : Prop :=
  ∀ position, readFrom state position text = .ok v

theorem gives_cons {state : State} (next : State) {c : Char} {rest : List Char} {v : Value}
    (steps : state.step c = .ok next) (gives : next.Gives rest v) : state.Gives (c :: rest) v := by
  intro position
  rw [readFrom, steps]
  exact gives _

theorem gives_nil {state : State} {v : Value} (finished : state.finish = .ok v) :
    state.Gives [] v := by
  intro position
  rw [readFrom, finished]

def Mode.awaitsValue : Mode → Bool
  | .value | .listStart | .listNext => true
  | _ => false

theorem step_begins {frames : List Frame} {mode : Mode} (awaits : mode.awaitsValue = true)
    {c : Char} (shown : isSpace c = false) (opens : c ≠ ']') :
    State.step ⟨frames, mode⟩ c = beginValue frames c := by
  cases mode with
  | value => simp only [State.step, shown, between, Bool.false_eq_true, ↓reduceIte]
  | listStart => simp only [State.step, shown, between, opens, Bool.false_eq_true, ↓reduceIte]
  | listNext => simp only [State.step, shown, between, opens, Bool.false_eq_true, ↓reduceIte]
  | _ => cases awaits

section Blanks

variable {frames : List Frame} {mode : Mode} {rest : List Char} {v : Value}

def Mode.skips : Mode → Bool
  | .word .. | .number _ | .string .. => false
  | _ => true

theorem Mode.skips_of_awaits (awaits : mode.awaitsValue = true) : mode.skips = true := by
  cases mode <;> first | rfl | cases awaits

theorem step_space (skips : mode.skips = true) {c : Char} (space : isSpace c = true) :
    State.step ⟨frames, mode⟩ c = .ok ⟨frames, mode⟩ := by
  cases mode with
  | word | number | string => cases skips
  | _ => exact if_pos space

theorem blanks_give (skips : mode.skips = true) {blanks : List Char}
    (only : ∀ c ∈ blanks, isSpace c = true) (gives : State.Gives ⟨frames, mode⟩ rest v) :
    State.Gives ⟨frames, mode⟩ (blanks ++ rest) v := by
  induction blanks with
  | nil => exact gives
  | cons c others ih =>
    rw [List.forall_mem_cons] at only
    exact gives_cons _ (step_space skips only.1) (ih only.2)

/-- The layout puts nothing but blanks before what it sets on a line of its own. -/
theorem gap_blank (style : Style) : ∀ c ∈ style.gap, isSpace c = true := by
  cases style with
  | compact => exact List.forall_mem_nil _
  | indented level =>
    refine List.forall_mem_cons.mpr ⟨rfl, ?_⟩
    intro c member
    rw [List.eq_of_mem_replicate member]
    rfl

theorem afterKey_colon (style : Style) :
    ∃ blanks, style.afterKey = ':' :: blanks ∧ ∀ c ∈ blanks, isSpace c = true := by
  cases style with
  | compact => exact ⟨[], rfl, List.forall_mem_nil _⟩
  | indented level => exact ⟨[' '], rfl, List.forall_mem_singleton.mpr rfl⟩

end Blanks

section Strings

variable {frames : List Frame} {role : Role} {read rest : List Char} {v : Value}

abbrev inQuotes (frames : List Frame) (role : Role) (read : List Char) (escape : Escape) : State :=
  ⟨frames, .string role read escape⟩

theorem hex_step {c : Char} (digit : Nat) {high left : Nat} (value : Text.hexValue? c = some digit)
    (one : c.utf8Size = 1) (more : 1 < left) (leading : Option Nat) :
    (inQuotes frames role read (.hex leading (some high) left)).step c =
      .ok (inQuotes frames role read (.hex leading (some (high * 16 + digit)) (left - 1))) := by
  simp only [State.step, inString, one, more, ↓reduceIte, Option.bind_some, value, Option.map_some]

theorem hex_last {c : Char} {digit high : Nat} (value : Text.hexValue? c = some digit)
    (one : c.utf8Size = 1) (control : high * 16 + digit < 0x20) :
    (inQuotes frames role read (.hex none (some high) 1)).step c =
      .ok (inQuotes frames role (Char.ofNat (high * 16 + digit) :: read) .none) := by
  have whole : ¬(0xD800 ≤ high * 16 + digit ∧ high * 16 + digit ≤ 0xDBFF) := by omega
  have alone : ¬(0xDC00 ≤ high * 16 + digit ∧ high * 16 + digit ≤ 0xDFFF) := by omega
  simp only [State.step, inString, one, Nat.lt_irrefl, ↓reduceIte, Option.bind_some, value,
    Option.map_some, endEscape, whole, alone, decide_false, Bool.false_eq_true]

theorem hexDigit_value (n : Nat) (small : n < 16) :
    Text.hexValue? (hexDigit n) = some n ∧ (hexDigit n).utf8Size = 1 := by
  have all : ∀ i : Fin 16,
      Text.hexValue? (hexDigit i) = some i.val ∧ (hexDigit i).utf8Size = 1 := by decide
  exact all ⟨n, small⟩

theorem escapeChar_gives (c : Char)
    (gives : (inQuotes frames role (c :: read) .none).Gives rest v) :
    (inQuotes frames role read .none).Gives (escapeChar c ++ rest) v := by
  rcases escapeChar_cases c with
    ⟨l, same, known, shown⟩ | ⟨control, same⟩ | ⟨same, quote, escape, shown⟩
  · rw [same]
    have letter : l ≠ 'u' := by
      rintro rfl
      cases known
    refine gives_cons (inQuotes frames role read .backslash) rfl (gives_cons _ ?_ gives)
    simp only [State.step, inString, letter, known, ↓reduceIte]
  · -- Of the four digits of its code the first two are zeros.
    have high := hexDigit_value (c.toNat / 16) (by omega)
    have low := hexDigit_value (c.toNat % 16) (by omega)
    have code : c.toNat / 16 * 16 + c.toNat % 16 = c.toNat := Nat.div_add_mod' _ _
    have control : c.toNat / 16 * 16 + c.toNat % 16 < 0x20 := by omega
    have last : (inQuotes frames role read (.hex none (some (c.toNat / 16)) 1)).step _ = _ :=
      hex_last low.1 low.2 control
    rw [code, Char.ofNat_toNat] at last
    rw [same]
    refine gives_cons (inQuotes frames role read .backslash) rfl ?_
    refine gives_cons (inQuotes frames role read (.hex none (some 0) 4)) rfl ?_
    refine gives_cons _ (hex_step 0 (by decide) (by decide) (by decide) none) ?_
    refine gives_cons _ (hex_step 0 (by decide) (by decide) (by decide) none) ?_
    refine gives_cons _ (hex_step _ high.1 high.2 (by decide) none) ?_
    refine gives_cons _ ?_ gives
    simpa only [Nat.zero_mul, Nat.zero_add] using last
  · rw [same]
    refine gives_cons _ ?_ gives
    have visible : ¬c.toNat < 0x20 := by omega
    simp only [State.step, inString, quote, escape, visible, ↓reduceIte]

theorem escape_gives (s : List Char)
    (gives : (endString frames role (String.ofList (read.reverse ++ s))).Gives rest v) :
    (inQuotes frames role read .none).Gives (escape s ++ '"' :: rest) v := by
  induction s generalizing read with
  | nil =>
    rw [List.append_nil] at gives
    exact gives_cons _ rfl gives
  | cons c others ih =>
    rw [escape, List.flatMap_cons, List.append_assoc]
    apply escapeChar_gives
    apply ih
    rw [List.reverse_cons, List.append_assoc]
    exact gives

theorem stringText_gives {state : State} (s : String)
    (quote : state.step '"' = .ok (inQuotes frames role [] .none))
    (gives : (endString frames role s).Gives rest v) : state.Gives (stringText s ++ rest) v := by
  rw [stringText, List.cons_append, List.cons_append, List.append_assoc, List.singleton_append]
  refine gives_cons _ quote (escape_gives s.toList ?_)
  rw [List.reverse_nil, List.nil_append, String.ofList_toList]
  exact gives

end Strings

section Numbers

variable {frames : List Frame} {rest : List Char} {v : Value}

/-- A number that ends here leaves the reader as if its value had been settled. -/
theorem number_gives {part : NumberPart} {w : Value} (value : part.value = .ok w)
    (ends : ∀ c, rest.head? = some c → part.next c = .ok none)
    (gives : (settle frames w).Gives rest v) : State.Gives ⟨frames, .number part⟩ rest v := by
  intro position
  have settled := gives position
  cases rest with
  | nil =>
    have same : State.finish ⟨frames, .number part⟩ = (settle frames w).finish := by
      simp only [State.finish, value]
      cases frames with
      | nil => rfl
      | cons frame others => cases frame <;> rfl
    rw [readFrom] at settled ⊢
    rw [same]
    exact settled
  | cons c rest =>
    have same : State.step ⟨frames, .number part⟩ c = (settle frames w).step c := by
      simp only [State.step, inNumber, ends c rfl, value]
      cases frames with
      | nil => rfl
      | cons frame others => cases frame <;> rfl
    rw [readFrom] at settled ⊢
    rw [same]
    exact settled

theorem digit?_digit {c : Char} (digit : c.isDigit = true) :
    digit? c = some (c.toNat - '0'.toNat) := if_pos digit

def unitsAfter (units : Nat) (digits : List Char) : Nat :=
  digits.foldl (fun n d => 10 * n + (d.toNat - '0'.toNat)) units

theorem le_unitsAfter (units : Nat) (digits : List Char) : units ≤ unitsAfter units digits := by
  induction digits generalizing units with
  | nil => exact Nat.le_refl units
  | cons c others ih =>
    have more := ih (10 * units + (c.toNat - '0'.toNat))
    rw [unitsAfter, List.foldl_cons]
    rw [unitsAfter] at more
    omega

/-- Digits after the first, as long as there is room for them. -/
theorem digits_give (negative : Bool) {digits : List Char}
    (only : ∀ c ∈ digits, c.isDigit = true) (units : Nat)
    (room : unitsAfter units digits ≤ maxUnits)
    (gives : State.Gives ⟨frames, .number (.whole negative (unitsAfter units digits))⟩ rest v) :
    State.Gives ⟨frames, .number (.whole negative units)⟩ (digits ++ rest) v := by
  induction digits generalizing units with
  | nil => exact gives
  | cons c others ih =>
    rw [List.forall_mem_cons] at only
    refine gives_cons _ ?_ (ih only.2 _ room gives)
    have here : units * 10 + (c.toNat - '0'.toNat) ≤ maxUnits := by
      rw [Nat.mul_comm]
      exact (le_unitsAfter _ others).trans room
    simp only [State.step, inNumber, NumberPart.next, digit?_digit only.1, here, ↓reduceIte,
      Nat.mul_comm]

theorem whole_ends {c : Char} (numeral : isNumeral c = false) (negative : Bool) (units : Nat) :
    (NumberPart.whole negative units).next c = .ok none ∧
      (NumberPart.leadingZero negative).next c = .ok none := by
  simp only [isNumeral, List.contains_cons, List.contains_nil, Bool.or_eq_false_iff,
    beq_eq_false_iff_ne, ne_eq] at numeral
  obtain ⟨digit, -, -, point, small, large, -⟩ := numeral
  simp only [NumberPart.next, digit?, digit, point, small, large, beq_iff_eq, Bool.or_eq_true,
    Bool.false_eq_true, or_self, ↓reduceIte, and_self]

/-- The digits of a number, the sign of which was read, from a state in which a value may begin. -/
theorem natural_gives (negative : Bool) {n : Nat} (room : n ≤ maxUnits) {w : Value}
    (value : wholeValue negative n = .ok w) (ends : EndsNumber rest)
    (gives : (settle frames w).Gives rest v) {state : State}
    (zero : state.step '0' = .ok ⟨frames, .number (.leadingZero negative)⟩)
    (digit : ∀ c, c.isDigit = true → c ≠ '0' →
      state.step c = .ok ⟨frames, .number (.whole negative (c.toNat - '0'.toNat))⟩) :
    state.Gives (Nat.toDigits 10 n ++ rest) v := by
  obtain ⟨⟨nonempty, only⟩, first⟩ := toDigits_whole n
  have number := Text.digitsValue_toDigits n
  cases same : Nat.toDigits 10 n with
  | nil => exact absurd same nonempty
  | cons c others =>
    rw [same] at only first number
    rw [List.forall_mem_cons] at only
    -- A zero stands alone, and every other number begins with another digit.
    by_cases isZero : c = '0'
    · subst isZero
      obtain rfl : others = [] := by
        rcases first with alone | leads
        · exact (List.cons.inj alone).2
        · exact absurd rfl leads
      obtain rfl : 0 = n := number
      exact gives_cons _ zero
        (number_gives value (fun c here => (whole_ends (ends c here) negative 0).2) gives)
    · have units : unitsAfter (c.toNat - '0'.toNat) others = n := by
        rw [← number, Text.digitsValue, List.foldl_cons, Nat.mul_zero, Nat.zero_add, unitsAfter]
      refine gives_cons _ (digit c only.1 isZero) (digits_give negative only.2 _ (units ▸ room) ?_)
      rw [units]
      exact number_gives value (fun c here => (whole_ends (ends c here) negative n).1) gives

theorem wholeValue_integer (n : Integer) :
    wholeValue (decide (n.val < 0)) n.val.natAbs = .ok (.num (.integer n)) := by
  have known : Integer.ofInt? n.val = some n := dif_pos ⟨n.lower, n.upper⟩
  unfold wholeValue
  by_cases negative : n.val < 0
  · have positive : ¬n.val.natAbs = 0 := by omega
    have whole : -(n.val.natAbs : Int) = n.val := by omega
    simp only [negative, decide_true, ↓reduceIte, Bool.true_and, beq_iff_eq, positive, whole, known]
  · have whole : (n.val.natAbs : Int) = n.val := by omega
    simp only [negative, decide_false, Bool.false_eq_true, ↓reduceIte, Bool.false_and, whole, known]

theorem beginValue_digit {c : Char} (digit : c.isDigit = true) (nonzero : c ≠ '0') :
    beginValue frames c = .ok ⟨frames, .number (.whole false (c.toNat - '0'.toNat))⟩ := by
  unfold beginValue
  split
  all_goals first | contradiction | skip
  simp only [digit?_digit digit]

theorem integer_gives {mode : Mode} (awaits : mode.awaitsValue = true) (n : Integer)
    (ends : EndsNumber rest) (gives : (settle frames (.num (.integer n))).Gives rest v) :
    State.Gives ⟨frames, mode⟩ (intText n.val ++ rest) v := by
  have value := wholeValue_integer n
  have room : n.val.natAbs ≤ maxUnits := by
    have lower := n.lower
    have upper := n.upper
    unfold maxUnits
    omega
  unfold intText
  by_cases negative : n.val < 0
  · simp only [negative, decide_true, ↓reduceIte, List.cons_append] at value ⊢
    have sign : State.step ⟨frames, mode⟩ '-' = .ok ⟨frames, .number .sign⟩ :=
      step_begins awaits rfl (by decide)
    refine gives_cons _ sign (natural_gives true room value ends gives rfl ?_)
    intro c digit nonzero
    have positive : ¬c.toNat - '0'.toNat = 0 := by
      have range := Char.isDigit_iff_toNat.mp digit
      have other : c.toNat ≠ '0'.toNat := fun same => nonzero (Char.toNat_inj.mp same)
      omega
    simp only [State.step, inNumber, NumberPart.next, digit?_digit digit, positive, ↓reduceIte]
  · simp only [negative, decide_false, ↓reduceIte, List.nil_append] at value ⊢
    refine natural_gives false room value ends gives (step_begins awaits rfl (by decide)) ?_
    intro c digit nonzero
    have shown : isSpace c = false := by
      rw [← Bool.not_eq_true]
      intro space
      simp only [isSpace, Bool.or_eq_true, beq_iff_eq] at space
      rcases space with ((rfl | rfl) | rfl) | rfl <;> cases digit
    have opens : c ≠ ']' := by
      rintro rfl
      cases digit
    rw [step_begins awaits shown opens]
    exact beginValue_digit digit nonzero

end Numbers

/-- Wherever a value may begin, the text of this one is read back, however it is laid out. -/
def Value.ReadsBack (w : Value) : Prop :=
  ∀ {frames : List Frame} {mode : Mode} {rest : List Char} {v : Value} (style : Style),
    mode.awaitsValue = true → frames.length + w.depth ≤ maxOpen → EndsNumber rest →
      (settle frames w.collapsed).Gives rest v →
        State.Gives ⟨frames, mode⟩ (w.text style ++ rest) v

theorem endsNumber_cons {c : Char} (other : isNumeral c = false) (rest : List Char) :
    EndsNumber (c :: rest) := by
  intro d here
  cases here
  exact other

theorem endsNumber_gap (style : Style) {c : Char} (other : isNumeral c = false)
    (rest : List Char) : EndsNumber (style.gap ++ c :: rest) := by
  cases style with
  | compact => exact endsNumber_cons other rest
  | indented level => exact endsNumber_cons rfl _

section Containers

variable {frames : List Frame} {rest : List Char} {v : Value} (style : Style)

theorem openContainer_room (room : frames.length < maxOpen) (frame : Frame) (mode : Mode) :
    openContainer frames frame mode = .ok ⟨frame :: frames, mode⟩ := if_pos room

theorem items_give {items : List Value} (each : ∀ w ∈ items, w.ReadsBack) (nonempty : items ≠ [])
    {done : List Value} {mode : Mode} (awaits : mode.awaitsValue = true)
    (room : frames.length + 1 + itemsDepth items ≤ maxOpen)
    (gives : (settle frames (.arr (done.reverse ++ collapsedItems items))).Gives rest v) :
    State.Gives ⟨.list done :: frames, mode⟩
      (itemsText style.deeper items ++ (style.gap ++ ']' :: rest)) v := by
  induction items generalizing done mode with
  | nil => exact absurd rfl nonempty
  | cons w others ih =>
    rw [List.forall_mem_cons] at each
    rw [itemsDepth] at room
    rw [collapsedItems, List.append_cons, ← List.reverse_cons] at gives
    have here : frames.length + 1 + w.depth ≤ maxOpen := by omega
    rw [itemsText, List.append_assoc, List.append_assoc]
    refine blanks_give (Mode.skips_of_awaits awaits) (gap_blank _) ?_
    cases others with
    | nil =>
      rw [collapsedItems, List.append_nil] at gives
      rw [List.isEmpty_nil, if_pos rfl, List.nil_append]
      refine each.1 _ awaits here (endsNumber_gap style rfl rest) ?_
      refine blanks_give rfl (gap_blank style) ?_
      exact gives_cons _ rfl gives
    | cons next more =>
      refine each.1 _ awaits here (endsNumber_cons rfl _) ?_
      refine gives_cons ⟨.list (w.collapsed :: done) :: frames, .listNext⟩ rfl ?_
      exact ih each.2 (List.cons_ne_nil _ _) rfl (by omega) gives

theorem member_gives {key : String} {w : Value} (own : w.ReadsBack) {done : Members} {mode : Mode}
    (awaits : mode = .objectStart ∨ mode = .objectNext)
    (room : frames.length + 1 + w.depth ≤ maxOpen) (ends : EndsNumber rest)
    (gives : State.Gives ⟨.object (Table.put key w.collapsed done) :: frames, .objectEnd⟩ rest v) :
    State.Gives ⟨.object done :: frames, mode⟩
      (stringText key ++ (style.afterKey ++ (w.text style ++ rest))) v := by
  have quote : State.step ⟨.object done :: frames, mode⟩ '"' =
      .ok (inQuotes (.object done :: frames) .key [] .none) := by
    rcases awaits with rfl | rfl <;> rfl
  obtain ⟨blanks, colon, only⟩ := afterKey_colon style
  rw [colon]
  refine stringText_gives key quote ?_
  refine gives_cons ⟨.member done key :: frames, .value⟩ rfl ?_
  exact blanks_give rfl only (own style rfl room ends gives)

theorem members_give {members : List (String × Value)}
    (each : ∀ entry ∈ members, entry.2.ReadsBack) (nonempty : members ≠ []) {done : Members}
    {mode : Mode} (awaits : mode = .objectStart ∨ mode = .objectNext)
    (room : frames.length + 1 + membersDepth members ≤ maxOpen)
    (gives : (settle frames (.obj (collapsedMembers done members))).Gives rest v) :
    State.Gives ⟨.object done :: frames, mode⟩
      (membersText style.deeper members ++ (style.gap ++ '}' :: rest)) v := by
  induction members generalizing done mode with
  | nil => exact absurd rfl nonempty
  | cons entry others ih =>
    rcases entry with ⟨key, w⟩
    rw [List.forall_mem_cons] at each
    rw [membersDepth] at room
    rw [collapsedMembers] at gives
    have here : frames.length + 1 + w.depth ≤ maxOpen := by omega
    have skips : mode.skips = true := by
      rcases awaits with rfl | rfl <;> rfl
    rw [membersText, List.append_assoc, List.append_assoc, List.append_assoc, List.append_assoc]
    refine blanks_give skips (gap_blank _) ?_
    cases others with
    | nil =>
      rw [collapsedMembers] at gives
      rw [List.isEmpty_nil, if_pos rfl, List.nil_append]
      refine member_gives _ each.1 awaits here (endsNumber_gap style rfl rest) ?_
      refine blanks_give rfl (gap_blank style) ?_
      exact gives_cons _ rfl gives
    | cons next more =>
      refine member_gives _ each.1 awaits here (endsNumber_cons rfl _) ?_
      refine gives_cons ⟨.object (Table.put key w.collapsed done) :: frames, .objectNext⟩ rfl ?_
      exact ih each.2 (List.cons_ne_nil _ _) (.inr rfl) (by omega) gives

end Containers

theorem text_items (style : Style) {items : List Value} (nonempty : items ≠ []) :
    (Value.arr items).text style =
      '[' :: (itemsText style.deeper items ++ (style.gap ++ [']'])) := by
  simp [Value.text, nonempty]

theorem text_members (style : Style) {members : List (String × Value)} (nonempty : members ≠ []) :
    (Value.obj members).text style =
      '{' :: (membersText style.deeper members ++ (style.gap ++ ['}'])) := by
  simp [Value.text, nonempty]

theorem text_arr {items : List Value} (nonempty : items ≠ []) :
    (Value.arr items).text .compact = '[' :: itemsText .compact items ++ [']'] :=
  text_items .compact nonempty

theorem text_obj {members : List (String × Value)} (nonempty : members ≠ []) :
    (Value.obj members).text .compact = '{' :: membersText .compact members ++ ['}'] :=
  text_members .compact nonempty

theorem whole_readsBack {w : Value} (whole : w.Whole) : w.ReadsBack := by
  induction whole with
  | null =>
    intro frames mode rest v style awaits _ _ gives
    refine gives_cons _ (step_begins awaits rfl (by decide)) ?_
    exact gives_cons _ rfl (gives_cons _ rfl (gives_cons _ rfl gives))
  | bool b =>
    intro frames mode rest v style awaits _ _ gives
    cases b with
    | true =>
      refine gives_cons _ (step_begins awaits rfl (by decide)) ?_
      exact gives_cons _ rfl (gives_cons _ rfl (gives_cons _ rfl gives))
    | false =>
      refine gives_cons _ (step_begins awaits rfl (by decide)) ?_
      exact gives_cons _ rfl (gives_cons _ rfl (gives_cons _ rfl (gives_cons _ rfl gives)))
  | integer n =>
    intro frames mode rest v style awaits _ ends gives
    exact integer_gives awaits n ends gives
  | str s =>
    intro frames mode rest v style awaits _ _ gives
    exact stringText_gives s (step_begins awaits rfl (by decide)) gives
  | @arr items each ih =>
    intro frames mode rest v style awaits room _ gives
    rw [Value.depth, Nat.add_comm _ 1, ← Nat.add_assoc] at room
    have bracket : State.step ⟨frames, mode⟩ '[' = .ok ⟨.list [] :: frames, .listStart⟩ :=
      (step_begins awaits rfl (by decide)).trans (openContainer_room (by omega) _ _)
    by_cases empty : items = []
    · subst empty
      exact gives_cons _ bracket (gives_cons _ rfl gives)
    · rw [text_items style empty, List.cons_append, List.append_assoc, List.append_assoc]
      exact gives_cons _ bracket (items_give style ih empty rfl room gives)
  | @obj members each ih =>
    intro frames mode rest v style awaits room _ gives
    rw [Value.depth, Nat.add_comm _ 1, ← Nat.add_assoc] at room
    have brace : State.step ⟨frames, mode⟩ '{' = .ok ⟨.object [] :: frames, .objectStart⟩ :=
      (step_begins awaits rfl (by decide)).trans (openContainer_room (by omega) _ _)
    by_cases empty : members = []
    · subst empty
      exact gives_cons _ brace (gives_cons _ rfl gives)
    · rw [text_members style empty, List.cons_append, List.append_assoc, List.append_assoc]
      exact gives_cons _ brace (members_give style ih empty (.inl rfl) room gives)

/-- A document with whole numbers that is not too deep is read back from its text. -/
theorem read_text {w : Value} (whole : w.Whole) (shallow : w.depth ≤ maxOpen) (style : Style) :
    read (w.text style) = .ok w.collapsed := by
  have gives : State.Gives ⟨[], .value⟩ (w.text style ++ []) w.collapsed :=
    whole_readsBack whole style rfl (by simpa using shallow) (fun c here => by cases here)
      (gives_nil rfl)
  rw [List.append_nil] at gives
  exact gives .start

theorem collapsedItems_same {items : List Value} (each : ∀ v ∈ items, v.collapsed = v) :
    collapsedItems items = items := by
  induction items with
  | nil => rfl
  | cons v rest ih =>
    rw [List.forall_mem_cons] at each
    rw [collapsedItems, each.1, ih each.2]

theorem collapsedMembers_same {done members : Members}
    (distinct : (Table.keys (done ++ members)).Nodup)
    (each : ∀ entry ∈ members, entry.2.collapsed = entry.2) :
    collapsedMembers done members = done ++ members := by
  induction members generalizing done with
  | nil => rw [collapsedMembers, List.append_nil]
  | cons entry rest ih =>
    rcases entry with ⟨key, v⟩
    rw [List.forall_mem_cons] at each
    have absent : key ∉ Table.keys done := by
      rw [Table.keys, List.map_append, List.nodup_append] at distinct
      intro member
      exact distinct.2.2 key member key List.mem_cons_self rfl
    rw [List.append_cons] at distinct ⊢
    rw [collapsedMembers, each.1, Table.put_absent _ _ _ absent]
    exact ih distinct each.2

theorem collapsed_same {v : Value} (distinct : v.Distinct) : v.collapsed = v := by
  induction v using Value.structural with
  | arr items ih =>
    have each : ∀ v ∈ items, v.collapsed = v :=
      fun v member => ih v member (distinct.items v member)
    rw [Value.collapsed, collapsedItems_same each]
  | obj members ih =>
    have each : ∀ entry ∈ members, entry.2.collapsed = entry.2 :=
      fun entry member => ih entry member (distinct.members entry member)
    have same : collapsedMembers [] members = members :=
      @collapsedMembers_same [] members distinct.keys each
    rw [Value.collapsed, same]
  | _ => rfl

end StructuredLog.Json
