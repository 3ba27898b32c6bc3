import StructuredLog.Command.Basic
import StructuredLog.Proofs.Text.Digits
import StructuredLog.Proofs.Text.Search

/-!
The fields of a command are those of its arguments. Whatever other options stand between them, and
in whichever way each is given, their texts are taken in order and as they are.
-/

namespace StructuredLog.Command

open Text (after?)

inductive Argument.Spelled : Argument → List Char → Prop where
  | stop : Spelled .stop ['-', '-']
  | longValue {name value : List Char} (plain : '=' ∉ name) :
      Spelled (.long (String.ofList name) (some (String.ofList value)))
        ('-' :: '-' :: (name ++ '=' :: value))
  | long {name : List Char} (plain : '=' ∉ name) (nonempty : name ≠ []) :
      Spelled (.long (String.ofList name) none) ('-' :: '-' :: name)
  | short {letter : Char} (other : letter ≠ '-') : Spelled (.short letter none) ['-', letter]
  | shortEquals {letter : Char} {value : List Char} (other : letter ≠ '-') :
      Spelled (.short letter (some (String.ofList value))) ('-' :: letter :: '=' :: value)
  | shortValue {letter first : Char} {more : List Char} (other : letter ≠ '-')
      (plain : first ≠ '=') :
      Spelled (.short letter (some (String.ofList (first :: more))))
        ('-' :: letter :: first :: more)
  | word {text : List Char} (plain : ∀ second more, text ≠ '-' :: second :: more) :
      Spelled .word text

theorem attached_spelled {letter : Char} (other : letter ≠ '-') (rest : List Char) :
    (Argument.short letter (attached rest)).Spelled ('-' :: letter :: rest) := by
  unfold attached
  split
  · exact .short other
  · exact .shortEquals other
  · next nonempty plain =>
    cases rest with
    | nil => exact absurd rfl nonempty
    | cons first more =>
      refine .shortValue other ?_
      rintro rfl
      exact plain more rfl

theorem long_spelled {rest : List Char} (nonempty : rest ≠ []) :
    (Argument.long (String.ofList (rest.takeWhile (· != '=')))
      (afterEquals (rest.dropWhile (· != '=')))).Spelled ('-' :: '-' :: rest) := by
  rcases Text.parted '=' rest with ⟨plain, taken, left⟩ | ⟨name, value, rfl, plain, taken, left⟩
  · rw [taken, left]
    exact .long plain nonempty
  · rw [taken, left]
    exact .longValue plain

theorem ofText_spelled (text : List Char) : (Argument.ofText text).Spelled text := by
  unfold Argument.ofText
  split
  · exact .stop
  · next rest nonempty => exact long_spelled fun none => nonempty none
  · next letter rest _ other => exact attached_spelled (fun same => other same) rest
  · next plain => exact .word fun second more same => plain second more same

def fieldName : List Char := "field".toList

/-- What an argument gives for a field: the text after the name of the option and an equals sign, or
after its letter, where the equals sign may be left out; or only the option, so that the text is in
the next argument. -/
def fieldGiven? (arg : List Char) : Option (Option String) :=
  if arg = '-' :: '-' :: fieldName ∨ arg = ['-', 'f'] then some none
  else ((after? ('-' :: '-' :: (fieldName ++ ['='])) arg).or
    ((after? ['-', 'f', '='] arg).or (after? ['-', 'f'] arg))).map fun text =>
      some (String.ofList text)

/-- The texts of the fields among arguments, the first of which may be awaited as such a text. -/
def fieldTexts : Bool → List String → List String
  | _, [] => []
  | true, text :: rest => text :: fieldTexts false rest
  | false, arg :: rest => match fieldGiven? arg.toList with
    | none => fieldTexts false rest
    | some none => fieldTexts true rest
    | some (some text) => text :: fieldTexts false rest

def Argument.field? : Argument → Option (Option String)
  | .long name value => if name = "field" then some value else none
  | .short letter value => if letter = 'f' then some value else none
  | .stop | .word => none

theorem after?_name {key name : List Char} (plain : '=' ∉ key) (other : '=' ∉ name)
    (value : List Char) :
    after? (key ++ ['=']) (name ++ '=' :: value) = if name = key then some value else none := by
  split
  · next same =>
    rw [same, Text.after?_eq_some, List.append_assoc]
    rfl
  · next differ =>
    rw [Option.eq_none_iff_forall_ne_some]
    intro rest found
    rw [Text.after?_eq_some, List.append_assoc, List.singleton_append] at found
    have taken := (Text.run_before other value).1
    rw [found, (Text.run_before plain rest).1] at taken
    exact differ taken.symm

theorem fieldGiven?_long (text : List Char) : fieldGiven? ('-' :: '-' :: text) =
    if text = fieldName then some none
    else (after? (fieldName ++ ['=']) text).map fun value => some (String.ofList value) := by
  have bare : '-' :: '-' :: text = '-' :: '-' :: fieldName ∨ '-' :: '-' :: text = ['-', 'f'] ↔
      text = fieldName := by
    constructor
    · rintro (same | ⟨⟨⟩⟩)
      exact (List.cons.inj (List.cons.inj same).2).2
    · rintro rfl
      exact .inl rfl
  have letters : ∀ more, after? ('-' :: 'f' :: more) ('-' :: '-' :: text) = none := fun _ => rfl
  have name : after? ('-' :: '-' :: (fieldName ++ ['='])) ('-' :: '-' :: text) =
      after? (fieldName ++ ['=']) text := rfl
  simp only [fieldGiven?, bare, letters, name, Option.or_none]

theorem fieldGiven?_short {letter : Char} (other : letter ≠ '-') (text : List Char) :
    fieldGiven? ('-' :: letter :: text) =
      if letter = 'f' then (if text = [] then some none else
        ((after? ['='] text).or (some text)).map fun value => some (String.ofList value))
      else none := by
  have names : ∀ more, after? ('-' :: '-' :: more) ('-' :: letter :: text) = none :=
    fun _ => if_neg other.symm
  have bare : '-' :: letter :: text = '-' :: '-' :: fieldName ∨ '-' :: letter :: text = ['-', 'f'] ↔
      letter = 'f' ∧ text = [] := by
    constructor
    · rintro (same | same)
      · exact absurd (List.cons.inj (List.cons.inj same).2).1 other
      · exact List.cons.inj (List.cons.inj same).2
    · rintro ⟨rfl, rfl⟩
      exact .inr rfl
  by_cases letters : letter = 'f'
  · subst letters
    by_cases none : text = []
    · rw [fieldGiven?, if_pos (bare.mpr ⟨rfl, none⟩), if_pos rfl, if_pos none]
    · have own : after? ['-', 'f'] ('-' :: 'f' :: text) = some text := rfl
      have equals : after? ['-', 'f', '='] ('-' :: 'f' :: text) = after? ['='] text := rfl
      simp only [fieldGiven?, bare, none, names, own, equals, and_false, ↓reduceIte, Option.none_or]
  · have none : ∀ more, after? ('-' :: 'f' :: more) ('-' :: letter :: text) = none :=
      fun _ => (if_pos rfl).trans (if_neg fun same => letters same.symm)
    simp only [fieldGiven?, bare, letters, false_and, ↓reduceIte, names, none, Option.or_none,
      Option.map_none]

theorem field?_spelled {argument : Argument} {text : List Char}
    (spelled : argument.Spelled text) : fieldGiven? text = argument.field? := by
  have plain : '=' ∉ fieldName := by decide
  have named : ∀ name : List Char, String.ofList name = "field" ↔ name = fieldName := by
    intro name
    rw [← String.toList_inj, String.toList_ofList, fieldName]
  cases spelled with
  | stop => rfl
  | @longValue name value other =>
    have more : name ++ '=' :: value ≠ fieldName := by
      intro same
      exact plain (same ▸ List.mem_append_right _ List.mem_cons_self)
    rw [fieldGiven?_long, if_neg more, after?_name plain other, Argument.field?]
    simp only [named]
    split <;> rfl
  | @long name other nonempty =>
    have noValue : after? (fieldName ++ ['=']) name = none := by
      rw [Option.eq_none_iff_forall_ne_some]
      intro rest found
      rw [Text.after?_eq_some] at found
      exact other (found ▸ List.mem_append_left _ (List.mem_append_right _ List.mem_cons_self))
    rw [fieldGiven?_long, noValue, Argument.field?]
    simp only [named]
    rfl
  | short other => exact fieldGiven?_short other []
  | @shortEquals letter value other =>
    have equals : after? ['='] ('=' :: value) = some value := rfl
    rw [fieldGiven?_short other, equals]
    rfl
  | @shortValue letter first more other differ =>
    have none : after? ['='] (first :: more) = none := Text.after?_other [] more differ
    rw [fieldGiven?_short other, none]
    rfl
  | word other =>
    have bare : ¬(text = '-' :: '-' :: fieldName ∨ text = ['-', 'f']) := by
      rintro (rfl | rfl)
      · exact other _ _ rfl
      · exact other _ _ rfl
    have missing : ∀ second more, after? ('-' :: second :: more) text = none := by
      intro second more
      rw [Option.eq_none_iff_forall_ne_some]
      intro rest found
      rw [Text.after?_eq_some] at found
      exact other _ _ found
    rw [fieldGiven?, if_neg bare, missing, missing, missing]
    rfl

theorem fieldGiven?_eq (text : List Char) : fieldGiven? text = (Argument.ofText text).field? :=
  field?_spelled (ofText_spelled text)

/-- A field is asked for by its name and by its letter alike, and always with a text. -/
structure Grammar.KnowsFields (g : Grammar) : Prop where
  letter : ∀ o ∈ g.options, o.name = "field" ↔ o.letter = some 'f'
  text : ∀ o ∈ g.options, o.name = "field" → o.arity ≠ .flag

theorem logGrammar_knowsFields : logGrammar.KnowsFields := ⟨by decide, by decide⟩

theorem topGrammar_knowsFields : topGrammar.KnowsFields := ⟨by decide, by decide⟩

theorem ofOption_take {found : Option OptionSpec} {value : Option String} {o : OptionSpec}
    {text : String} (used : Use.ofOption found value = .take o text) :
    found = some o ∧ (o.arity ≠ .flag → value = some text) := by
  unfold Use.ofOption at used
  split at used
  · cases used
  · split at used
    · next flag =>
      cases used
      exact ⟨rfl, fun other => absurd flag other⟩
    · cases used
    · cases used
      exact ⟨rfl, fun _ => rfl⟩
    · cases used

theorem ofOption_await {found : Option OptionSpec} {value : Option String} {o : OptionSpec}
    (used : Use.ofOption found value = .await o) : found = some o ∧ value = none := by
  unfold Use.ofOption at used
  split at used
  · cases used
  · split at used
    · cases used
    · cases used
    · cases used
    · cases used
      exact ⟨rfl, rfl⟩

inductive Grammar.Calls (g : Grammar) (o : OptionSpec) (value : Option String) : Argument → Prop
    where
  | long (listed : o ∈ g.options) : Calls g o value (.long o.name value)
  | short {letter : Char} (listed : o ∈ g.options) (lettered : o.letter = some letter) :
      Calls g o value (.short letter value)

theorem Grammar.Calls.listed {g : Grammar} {o : OptionSpec} {value : Option String}
    {argument : Argument} (calls : g.Calls o value argument) : o ∈ g.options := by
  cases calls with
  | long listed => exact listed
  | short listed => exact listed

theorem Grammar.Calls.field {g : Grammar} (knows : g.KnowsFields) {o : OptionSpec}
    {value : Option String} {argument : Argument} (calls : g.Calls o value argument) :
    argument.field? = if o.name = "field" then some value else none := by
  cases calls with
  | long listed => rfl
  | @short letter listed lettered =>
    have named : o.name = "field" ↔ letter = 'f' := by
      rw [knows.letter o listed, lettered, Option.some.injEq]
    rw [Argument.field?]
    simp only [named]

theorem Grammar.calls_long {g : Grammar} {name : String} {o : OptionSpec}
    (found : g.options.find? (·.name == name) = some o) (value : Option String) :
    g.Calls o value (.long name value) := by
  have same := List.find?_some found
  rw [beq_iff_eq] at same
  exact same ▸ .long (List.mem_of_find?_eq_some found)

theorem Grammar.calls_short {g : Grammar} {letter : Char} {o : OptionSpec}
    (found : g.options.find? (·.letter == some letter) = some o) (value : Option String) :
    g.Calls o value (.short letter value) := by
  have same := List.find?_some found
  rw [beq_iff_eq] at same
  exact .short (List.mem_of_find?_eq_some found) same

theorem use_take {g : Grammar} {argument : Argument} {o : OptionSpec} {text : String}
    (used : g.use argument = .take o text) :
    ∃ value, g.Calls o value argument ∧ (o.arity ≠ .flag → value = some text) := by
  unfold Grammar.use at used
  split at used
  · cases used
  · cases used
  · obtain ⟨found, taken⟩ := ofOption_take used
    exact ⟨_, Grammar.calls_long found _, taken⟩
  · cases used
  · cases used
  · obtain ⟨found, taken⟩ := ofOption_take used
    exact ⟨_, Grammar.calls_short found _, taken⟩
  · cases used
  · cases used

theorem use_await {g : Grammar} {argument : Argument} {o : OptionSpec}
    (used : g.use argument = .await o) : g.Calls o none argument := by
  unfold Grammar.use at used
  split at used
  · cases used
  · cases used
  · obtain ⟨found, rfl⟩ := ofOption_await used
    exact Grammar.calls_long found none
  · cases used
  · cases used
  · obtain ⟨found, rfl⟩ := ofOption_await used
    exact Grammar.calls_short found none
  · cases used
  · cases used

/-- Arguments that are taken one after another, from what is waiting and given to what is then. -/
inductive Grammar.Takes (g : Grammar) :
    Waiting → Given → List String → Waiting → Given → List String → Prop where
  | done {w : Waiting} {given : Given} {args : List String} : Takes g w given args w given args
  | value {o : OptionSpec} {given later : Given} {arg : String} {args left : List String}
      {w : Waiting} (plain : startsOption arg = false)
      (rest : Takes g (.valued o arg) given args w later left) :
      Takes g (.named o) given (arg :: args) w later left
  | take {start w : Waiting} {given settled more later : Given} {arg text : String}
      {args left : List String} {o : OptionSpec} (ready : start.settle given = some settled)
      (used : g.use (.ofText arg.toList) = .take o text)
      (added : addGiven o text settled = some more)
      (rest : Takes g .nothing more args w later left) :
      Takes g start given (arg :: args) w later left
  | await {start w : Waiting} {given settled later : Given} {arg : String}
      {args left : List String} {o : OptionSpec} (ready : start.settle given = some settled)
      (used : g.use (.ofText arg.toList) = .await o)
      (rest : Takes g (.named o) settled args w later left) :
      Takes g start given (arg :: args) w later left

inductive Grammar.Ends (g : Grammar) : Waiting → Given → List String → Parsed → Prop where
  | complete {w : Waiting} {given out : Given} {left : List String}
      (ready : w.settle given = some out) (last : left = [] ∨ left = ["--"]) :
      Ends g w given left (.complete out)
  | subcommand {w : Waiting} {given : Given} {word : String} {rest : List String}
      (free : ∀ o, w ≠ .named o) (listed : word ∈ g.subcommands) :
      Ends g w given (word :: rest) (.subcommand (w.settle given) word rest)
  | version {w : Waiting} {given : Given} {left : List String} : Ends g w given left .version
  | help {w : Waiting} {given : Given} {left : List String} : Ends g w given left .help
  | refused {w : Waiting} {given : Given} {left : List String} : Ends g w given left .refused

theorem ofText_stop {text : List Char} (stop : Argument.ofText text = .stop) :
    text = ['-', '-'] := by
  have spelled := ofText_spelled text
  rw [stop] at spelled
  cases spelled
  rfl

theorem parse_takes (g : Grammar) (start : Waiting) (given : Given) (args : List String) :
    ∃ w later left, g.Takes start given args w later left ∧
      g.Ends w later left (g.parse start given args) := by
  fun_induction Grammar.parse g start given args with
  | case1 start given out ready => exact ⟨_, _, _, .done, .complete ready (.inl rfl)⟩
  | case2 => exact ⟨_, _, _, .done, .refused⟩
  | case3 => exact ⟨_, _, _, .done, .refused⟩
  | case4 o given arg rest plain ih =>
    obtain ⟨w, later, left, takes, ends⟩ := ih
    exact ⟨w, later, left, .value (eq_false_of_ne_true plain) takes, ends⟩
  | case5 start given word rest free listed =>
    exact ⟨_, _, _, .done, .subcommand free (List.contains_iff_mem.mp listed)⟩
  | case6 => exact ⟨_, _, _, .done, .refused⟩
  | case7 start given arg rest free other out stop ready last =>
    have alone : arg :: rest = ["--"] := by
      rw [List.isEmpty_iff.mp last, ← String.ofList_toList (s := arg), ofText_stop stop]
    exact ⟨_, _, _, .done, .complete ready (.inr alone)⟩
  | case8 => exact ⟨_, _, _, .done, .refused⟩
  | case9 start given arg rest free other settled ready o text more added _ used ih =>
    obtain ⟨w, later, left, takes, ends⟩ := ih
    exact ⟨w, later, left, .take ready used added takes, ends⟩
  | case10 => exact ⟨_, _, _, .done, .refused⟩
  | case11 start given arg rest free other settled ready o _ used ih =>
    obtain ⟨w, later, left, takes, ends⟩ := ih
    exact ⟨w, later, left, .await ready used takes, ends⟩
  | case12 => exact ⟨_, _, _, .done, .version⟩
  | case13 => exact ⟨_, _, _, .done, .help⟩
  | case14 => exact ⟨_, _, _, .done, .refused⟩

/-- The texts of fields that are still to be given: one that was not looked at yet, and those of the
arguments that are left. -/
def Waiting.fieldsLeft (args : List String) : Waiting → List String
  | .nothing => fieldTexts false args
  | .named o => fieldTexts (o.name == "field") args
  | .valued o text => (if o.name = "field" then [text] else []) ++ fieldTexts false args

theorem values_snoc (given : Given) (name text : String) :
    Given.values "field" (given ++ [(name, text)]) =
      given.values "field" ++ if name = "field" then [text] else [] := by
  rw [Given.values, Given.values, List.filter_append, List.map_append]
  congr 1
  by_cases same : name = "field"
  · simp [same]
  · simp [same]

theorem addGiven_values {o : OptionSpec} {text : String} {given more : Given}
    (added : addGiven o text given = some more) :
    more.values "field" = given.values "field" ++ if o.name = "field" then [text] else [] := by
  unfold addGiven at added
  split at added
  · cases added
  · split at added
    · cases added
      exact values_snoc given o.name text
    · cases added

theorem settle_values {w : Waiting} {given settled : Given} (ready : w.settle given = some settled)
    (args : List String) : given.values "field" ++ w.fieldsLeft args =
      settled.values "field" ++ fieldTexts false args := by
  cases w with
  | nothing =>
    cases ready
    rfl
  | named o => cases ready
  | valued o text => rw [addGiven_values ready, List.append_assoc, Waiting.fieldsLeft]

theorem fieldTexts_other {arg : String} (other : fieldGiven? arg.toList = none)
    (rest : List String) : fieldTexts false (arg :: rest) = fieldTexts false rest := by
  rw [fieldTexts, other]

theorem fieldTexts_awaited {arg : String} (bare : fieldGiven? arg.toList = some none)
    (rest : List String) : fieldTexts false (arg :: rest) = fieldTexts true rest := by
  rw [fieldTexts, bare]

theorem fieldTexts_held {arg text : String} (held : fieldGiven? arg.toList = some (some text))
    (rest : List String) : fieldTexts false (arg :: rest) = text :: fieldTexts false rest := by
  rw [fieldTexts, held]

theorem fieldGiven?_plain {arg : String} (plain : startsOption arg = false) :
    fieldGiven? arg.toList = none := by
  have word : ∀ second more, arg.toList ≠ '-' :: second :: more := by
    intro second more same
    rw [startsOption, same] at plain
    cases plain
  exact field?_spelled (.word word)

/-- What was given for fields and what is still to be given stays the same. -/
theorem Grammar.Takes.fields {g : Grammar} (knows : g.KnowsFields) {start w : Waiting}
    {given later : Given} {args left : List String}
    (takes : g.Takes start given args w later left) :
    later.values "field" ++ w.fieldsLeft left = given.values "field" ++ start.fieldsLeft args := by
  induction takes with
  | done => rfl
  | @value o given later arg args left w plain rest ih =>
    rw [ih, Waiting.fieldsLeft, Waiting.fieldsLeft]
    by_cases field : o.name = "field"
    · rw [if_pos field, beq_iff_eq.mpr field]
      rfl
    · rw [if_neg field, beq_eq_false_iff_ne.mpr field, fieldTexts_other (fieldGiven?_plain plain),
        List.nil_append]
  | @take start w given settled more later arg text args left o ready used added rest ih =>
    obtain ⟨value, calls, taken⟩ := use_take used
    have form := (fieldGiven?_eq arg.toList).trans (calls.field knows)
    rw [ih, settle_values ready, addGiven_values added, Waiting.fieldsLeft]
    by_cases field : o.name = "field"
    · rw [if_pos field, taken (knows.text o calls.listed field)] at form
      rw [if_pos field, fieldTexts_held form, List.append_assoc, List.singleton_append]
    · rw [if_neg field] at form
      rw [if_neg field, fieldTexts_other form, List.append_nil]
  | @await start w given settled later arg args left o ready used rest ih =>
    have form := (fieldGiven?_eq arg.toList).trans ((use_await used).field knows)
    rw [ih, settle_values ready, Waiting.fieldsLeft]
    by_cases field : o.name = "field"
    · rw [if_pos field] at form
      rw [beq_iff_eq.mpr field, fieldTexts_awaited form]
    · rw [if_neg field] at form
      rw [beq_eq_false_iff_ne.mpr field, fieldTexts_other form]

inductive Waiting.Unrelated : Waiting → Prop where
  | nothing : Unrelated .nothing
  | named {o : OptionSpec} (other : o.name ≠ "field") : Unrelated (.named o)
  | valued {o : OptionSpec} {text : String} (other : o.name ≠ "field") : Unrelated (.valued o text)

theorem Waiting.Unrelated.left {w : Waiting} (unrelated : w.Unrelated) (args : List String) :
    w.fieldsLeft args = fieldTexts false args := by
  cases unrelated with
  | nothing => rfl
  | named other => rw [Waiting.fieldsLeft, beq_eq_false_iff_ne.mpr other]
  | valued other => rw [Waiting.fieldsLeft, if_neg other, List.nil_append]

theorem Grammar.Takes.unrelated {g : Grammar} (none : ∀ o ∈ g.options, o.name ≠ "field")
    {start w : Waiting} {given later : Given} {args left : List String}
    (takes : g.Takes start given args w later left) (unrelated : start.Unrelated)
    (empty : given.values "field" = []) : w.Unrelated ∧ later.values "field" = [] := by
  have settled : ∀ {w : Waiting} {given settled : Given}, w.Unrelated →
      given.values "field" = [] → w.settle given = some settled →
        settled.values "field" = [] := by
    intro w given settled unrelated empty ready
    have values := settle_values ready []
    rw [unrelated.left, empty] at values
    exact (List.append_eq_nil_iff.mp values.symm).1
  induction takes with
  | done => exact ⟨unrelated, empty⟩
  | value plain rest ih =>
    cases unrelated with
    | named other => exact ih (.valued other) empty
  | @take start w given settled' more later arg text args left o ready used added rest ih =>
    obtain ⟨value, calls, -⟩ := use_take used
    refine ih .nothing ?_
    rw [addGiven_values added, settled unrelated empty ready, if_neg (none o calls.listed)]
    rfl
  | await ready used rest ih =>
    exact ih (.named (none _ (use_await used).listed)) (settled unrelated empty ready)

theorem after_run {reading : Reading} {given : Option Given} {level : Option String}
    {command : Command} (reads : reading.after given = .run level command) :
    reading = .run level command ∧ ∃ out, given = some out := by
  cases reading with
  | run own other =>
    cases given with
    | none => cases reads
    | some out => exact ⟨reads, out, rfl⟩
  | about text => cases reads
  | refused => cases reads

theorem readSubcommand_log {level own : Option String} {word : String} {args : List String}
    {c : LogCommand} (reads : readSubcommand own word args = .run level (.log c)) :
    ∃ given, logGrammar.parse .nothing [] args = .complete given ∧ logOf? given = some c := by
  unfold readSubcommand at reads
  split at reads
  · split at reads
    · unfold readHelp at reads
      split at reads
      · cases reads
      · split at reads <;> cases reads
      · cases reads
    · cases reads
  · next grammar build known =>
    split at reads
    · next given parsed =>
      split at reads
      · next command made =>
        obtain ⟨-, rfl⟩ := Reading.run.inj reads
        unfold subcommand? at known
        split at known
        · cases known
          cases made
        · cases known
          obtain ⟨other, found, same⟩ := Option.map_eq_some_iff.mp made
          cases same
          exact ⟨given, parsed, found⟩
        · cases known
          cases made
        · cases known
      · cases reads
    · cases reads
    · cases reads
    · cases reads
    · cases reads

theorem logGrammar_fields {args : List String} {given : Given}
    (parsed : logGrammar.parse .nothing [] args = .complete given) :
    given.values "field" = fieldTexts false args := by
  obtain ⟨w, later, left, takes, ends⟩ := parse_takes logGrammar .nothing [] args
  have fields := takes.fields logGrammar_knowsFields
  rw [parsed] at ends
  cases ends with
  | complete ready last =>
    have none : fieldTexts false left = [] := by
      rcases last with rfl | rfl <;> rfl
    rw [settle_values ready, none, List.append_nil] at fields
    exact fields

theorem topGrammar_fields {args rest : List String} {given : Given} {word : String}
    (parsed : topGrammar.parse .nothing [] args = .subcommand (some given) word rest) :
    fieldTexts false args = fieldTexts false rest := by
  obtain ⟨w, later, left, takes, ends⟩ := parse_takes topGrammar .nothing [] args
  have none : ∀ o ∈ topGrammar.options, o.name ≠ "field" := by decide
  have plain : ∀ word ∈ topGrammar.subcommands, startsOption word = false := by decide
  have fields := takes.fields topGrammar_knowsFields
  obtain ⟨unrelated, empty⟩ := takes.unrelated none .nothing rfl
  rw [parsed] at ends
  generalize answer : some given = out at ends
  cases ends with
  | subcommand free listed =>
    rw [unrelated.left, empty, fieldTexts_other (fieldGiven?_plain (plain word listed))] at fields
    exact fields.symm

/-- The fields of a message that is logged are those of the arguments, in order. -/
theorem read_fields {args : List String} {level : Option String} {c : LogCommand}
    (reads : read args = .run level (.log c)) : c.fields = fieldTexts false args := by
  unfold read at reads
  split at reads
  · next out word rest parsed =>
    obtain ⟨reads, given, rfl⟩ := after_run reads
    obtain ⟨own, own_parsed, made⟩ := readSubcommand_log reads
    rw [topGrammar_fields parsed, ← logGrammar_fields own_parsed]
    unfold logOf? at made
    obtain ⟨message, -, rfl⟩ := Option.map_eq_some_iff.mp made
    rfl
  · cases reads
  · cases reads
  · cases reads
  · cases reads

example : fieldTexts false ["-l", "info", "log", "--field", "a=1", "-fb=2", "-m", "text",
    "-f=c=3", "--field=d=4", "-s", "error", "-f", "e=5"] =
      ["a=1", "b=2", "c=3", "d=4", "e=5"] := by decide

end StructuredLog.Command
