import StructuredLog.Config.Settings
import StructuredLog.Proofs.Config.Blank
import StructuredLog.Proofs.Config.Precedence
import StructuredLog.Proofs.Json.Decoding
import StructuredLog.Proofs.Json.Occurrence

/-!
Settings that were written as a document are loaded as they were. Nothing in the text is taken for
a comment, the document is read back, templates and variables find nothing to do, and every field
is decoded as it was written.
-/

namespace StructuredLog.Config

open Json (Value Members Decoder)

section Decoding

theorem HandlerSpec.decoder_toValue (h : HandlerSpec) : HandlerSpec.decoder h.toValue = .ok h := by
  have options : Decoder.list Decoder.string (.arr (h.options.map .str)) = .ok h.options :=
    Decoder.list_map fun _ _ => rfl
  refine Decoder.record_obj ?_ rfl
  rw [Decoder.fromMembers_cons rfl rfl, Decoder.fromMembers_cons rfl rfl,
    Decoder.fromMembers_cons rfl (Decoder.field_set options _ _ _),
    Decoder.fromMembers_cons rfl rfl]
  rfl

theorem unsigned_ofUInt64 (n : UInt64) :
    Decoder.unsigned (.num (.integer (.ofUInt64 n))) = .ok n := by
  have known : (Json.Integer.ofUInt64 n).unsigned? = some n := by
    rw [Json.Integer.unsigned?, Json.Integer.ofUInt64, if_pos (Int.natCast_nonneg _),
      Int.toNat_natCast, UInt64.ofNat_toNat]
  rw [Decoder.unsigned, known]

theorem LogSettings.decoder_toValue (l : LogSettings) : LogSettings.decoder l.toValue = .ok l := by
  have handlers : Decoder.list HandlerSpec.decoder (.arr (l.handlers.map HandlerSpec.toValue)) =
      .ok l.handlers := Decoder.list_map fun h _ => h.decoder_toValue
  refine Decoder.record_obj ?_ rfl
  rw [Decoder.fromMembers_cons rfl rfl, Decoder.fromMembers_cons rfl rfl,
    Decoder.fromMembers_cons rfl (Decoder.field_set handlers _ _ _),
    Decoder.fromMembers_cons rfl (Decoder.field_set (unsigned_ofUInt64 l.maxTypes) _ _ _),
    Decoder.fromMembers_cons rfl rfl]
  rfl

theorem Diagnostics.decoder_toValue (d : Diagnostics) : Diagnostics.decoder d.toValue = .ok d := by
  rcases d with ⟨level, asJson, directives⟩
  cases directives <;> rfl

/-- A default never hides what was written. -/
theorem Settings.decoder_toValue (s : Settings) : Settings.decoder s.toValue = .ok s := by
  refine Decoder.record_obj ?_ rfl
  rw [Decoder.fromMembers_cons rfl (Decoder.field_set s.logging.decoder_toValue _ _ _),
    Decoder.fromMembers_cons rfl (Decoder.field_set s.diagnostics.decoder_toValue _ _ _)]
  rfl

end Decoding

section Loading

theorem commentMark_foreign : Json.Foreign commentMark := by
  refine ⟨by decide, ?_⟩
  simp only [commentMark, List.forall_mem_cons, List.not_mem_nil, false_implies, implies_true,
    and_true]
  decide

abbrev Unmarked (s : String) : Prop := Text.occurs commentMark s.toList = false

theorem loadObject_compact {members : Members} (whole : (Value.obj members).Whole)
    (distinct : (Value.obj members).Distinct) (shallow : (Value.obj members).depth ≤ Json.maxOpen)
    (unmarked : (Value.obj members).Spelled Unmarked) (source : String) :
    loadObject (Value.obj members).compact source = .ok members := by
  have text : (Value.obj members).compact.toList = (Value.obj members).text .compact :=
    String.toList_ofList
  have brace : '{' ∈ (Value.obj members).text .compact := by
    cases members with
    | nil => exact List.mem_cons_self
    | cons entry rest =>
      rw [Json.text_obj (List.cons_ne_nil _ _)]
      exact List.mem_cons_self
  have clear : Text.occurs commentMark ((Value.obj members).text .compact) = false := by
    have passed := commentMark_foreign.text_pass whole unmarked []
    rw [List.append_nil] at passed
    exact passed
  have reads := Json.read_text whole shallow .compact
  rw [Json.collapsed_same distinct] at reads
  have shown : ¬Blank (Value.obj members).compact.toList := by
    rw [text]
    exact fun blank => absurd (blank '{' brace) (by decide)
  rw [loadObject_shown shown, text, stripComments_same clear, parse, reads]
  rfl

theorem ofText_plain (hostname : String) {text : String} {members : Members}
    (loaded : loadObject text "variable config" = .ok members)
    (distinct : (Table.keys members).Nodup) (plain : Plain members) :
    (Settings.ofText hostname text).final = some (Settings.ofValue (.obj members)) := by
  have loads : Loads (.empty []) { Request.empty with initial := text } [] members [] [] :=
    ⟨rfl, loaded, .nil, rfl⟩
  have merged := loads.merged
  rw [overlay_empty (by simp),
    mergeMembers_new false distinct fun key _ absent => by cases absent] at merged
  have document : ({ Request.empty with initial := text }.document (.empty []) hostname).final =
      some (.ok (.obj members)) := by
    rw [Request.document, merged]
    exact expanded_plain hostname _ plain
  rw [Settings.ofText, Settings.ofRequest, Eventual.final_bind, document]
  exact Eventual.final_lift _

end Loading

def HandlerSpec.strings (h : HandlerSpec) : List String := h.name :: h.type :: h.options

def Settings.strings (s : Settings) : List String :=
  [s.logging.appName, s.logging.appVersion, s.diagnostics.level] ++
    s.diagnostics.directives.toList ++ s.logging.handlers.flatMap HandlerSpec.strings

section Document

def recordKeys : List (List String) :=
  [["logging", "diagnostics"],
   ["app_name", "app_version", "handlers", "max_handler_types", "indented"],
   ["name", "type", "options", "params"],
   ["level", "json_format", "filter_directives"]]

/-- A property of values that arrays and records take over from their parts. -/
structure Inherited (P : Value → Prop) : Prop where
  null : P .null
  bool : ∀ b, P (.bool b)
  integer : ∀ n, P (.num (.integer n))
  arr : ∀ {items}, (∀ v ∈ items, P v) → P (.arr items)
  record : ∀ {members : Members}, Table.keys members ∈ recordKeys →
    (∀ entry ∈ members, P entry.2) → P (.obj members)

theorem Inherited.toValue {P : Value → Prop} (inherited : Inherited P) {s : Settings}
    (strings : ∀ t ∈ s.strings, P (.str t)) (params : ∀ h ∈ s.logging.handlers, P h.params) :
    P s.toValue := by
  simp only [Settings.strings, HandlerSpec.strings, List.forall_mem_append, List.forall_mem_cons,
    List.forall_mem_flatMap, List.not_mem_nil, false_implies, implies_true, and_true] at strings
  obtain ⟨⟨⟨appName, appVersion, level⟩, directives⟩, handlers⟩ := strings
  have specs : ∀ v ∈ s.logging.handlers.map HandlerSpec.toValue, P v := by
    rw [List.forall_mem_map]
    intro h member
    obtain ⟨name, type, options⟩ := handlers h member
    have listed : P (.arr (h.options.map .str)) := inherited.arr (List.forall_mem_map.mpr options)
    refine inherited.record (by simp [recordKeys, Table.keys]) ?_
    simp [name, type, listed, params h member]
  have log : P s.logging.toValue := by
    refine inherited.record (by simp [recordKeys, Table.keys]) ?_
    simp [appName, appVersion, inherited.arr specs, inherited.integer, inherited.bool]
  have report : P s.diagnostics.toValue := by
    refine inherited.record (by simp [recordKeys, Table.keys]) ?_
    cases given : s.diagnostics.directives with
    | none => simp [level, inherited.bool, inherited.null]
    | some d =>
      have own := directives d (by simp [given])
      simp [level, inherited.bool, own]
  refine inherited.record (by simp [recordKeys, Table.keys]) ?_
  simp [log, report]

theorem toValue_keyed {P : List String → Prop} (records : ∀ keys ∈ recordKeys, P keys)
    {s : Settings} (params : ∀ h ∈ s.logging.handlers, h.params.Keyed P) : s.toValue.Keyed P := by
  have inherited : Inherited (Value.Keyed P) :=
    ⟨.scalar rfl, fun _ => .scalar rfl, fun _ => .scalar rfl, .arr,
      fun known each => .obj (records _ known) each⟩
  exact inherited.toValue (fun _ _ => .scalar rfl) params

theorem toValue_spelled {P : String → Prop}
    (records : ∀ keys ∈ recordKeys, ∀ key ∈ keys, P key) {s : Settings}
    (strings : ∀ t ∈ s.strings, P t) (params : ∀ h ∈ s.logging.handlers, h.params.Spelled P) :
    s.toValue.Spelled P := by
  have inherited : Inherited (Value.Spelled P) :=
    ⟨.null, .bool, fun _ => .num _, .arr,
      fun known each => .obj (List.forall_mem_map.mp (records _ known)) each⟩
  exact inherited.toValue (fun t member => .str (strings t member)) params

theorem toValue_whole {s : Settings} (params : ∀ h ∈ s.logging.handlers, h.params.Whole) :
    s.toValue.Whole := by
  have inherited : Inherited Value.Whole :=
    ⟨.null, .bool, .integer, .arr, fun _ each => .obj each⟩
  exact inherited.toValue (fun _ _ => .str _) params

end Document

/-- Settings that a document can carry: nothing in them begins a comment, no key of parameters is a
template or there twice, all numbers of parameters are whole, and the document is not too deep to be
read. -/
structure Savable (s : Settings) : Prop where
  strings : ∀ t ∈ s.strings, Unmarked t
  unmarked : ∀ h ∈ s.logging.handlers, h.params.Spelled Unmarked
  untemplated : ∀ h ∈ s.logging.handlers, ∀ shape, Untemplated shape h.params
  whole : ∀ h ∈ s.logging.handlers, h.params.Whole
  distinct : ∀ h ∈ s.logging.handlers, h.params.Distinct
  shallow : s.toValue.depth ≤ Json.maxOpen

theorem Savable.plain {s : Settings} (savable : Savable s) :
    Plain [("logging", s.logging.toValue), ("diagnostics", s.diagnostics.toValue)] := by
  refine ⟨rfl, fun shape => ?_⟩
  have records : ∀ keys ∈ recordKeys, ∀ key ∈ keys, shape.group? key = none := by
    cases shape <;> decide
  exact toValue_keyed records fun h member => savable.untemplated h member shape

/-- Settings are loaded from their own text as they are, calls of variables included. -/
theorem ofText_compact (hostname : String) {s : Settings} (savable : Savable s) :
    (Settings.ofText hostname s.toValue.compact).final = some (.ok s) := by
  have distinct : s.toValue.Distinct := toValue_keyed (by decide) savable.distinct
  have spelled : s.toValue.Spelled Unmarked :=
    toValue_spelled (by decide) savable.strings savable.unmarked
  have loaded := loadObject_compact (toValue_whole savable.whole) distinct savable.shallow spelled
    "variable config"
  have decoded : Settings.ofValue s.toValue = .ok s := by
    rw [Settings.ofValue, s.decoder_toValue]
  exact (ofText_plain hostname loaded distinct.keys savable.plain).trans (congrArg some decoded)

def called : Settings :=
  ⟨⟨"(^^app^^)", "2.0",
    [⟨"audit", "file", ["notime"],
      .obj [("directory", .str "/var/log/(^^app^^)"), ("keep", .num (.integer (.ofUInt64 7)))]⟩],
    10, false⟩, ⟨"warn", true, none⟩⟩

theorem called_reloads :
    Savable called ∧ (Settings.ofText "host" called.toValue.compact).final = some (.ok called) := by
  have savable : Savable called := by
    refine ⟨by decide, ?_, ?_, ?_, ?_, by decide⟩
    · refine List.forall_mem_singleton.mpr (.obj (by decide) ?_)
      exact List.forall_mem_cons.mpr ⟨.str (by decide), List.forall_mem_singleton.mpr (.num _)⟩
    · refine List.forall_mem_singleton.mpr fun shape => .obj (by cases shape <;> decide) ?_
      exact List.forall_mem_cons.mpr ⟨.scalar rfl, List.forall_mem_singleton.mpr (.scalar rfl)⟩
    · refine List.forall_mem_singleton.mpr (.obj ?_)
      exact List.forall_mem_cons.mpr ⟨.str _, List.forall_mem_singleton.mpr (.integer _)⟩
    · refine List.forall_mem_singleton.mpr (.obj (by decide) ?_)
      exact List.forall_mem_cons.mpr ⟨.scalar rfl, List.forall_mem_singleton.mpr (.scalar rfl)⟩
  exact ⟨savable, ofText_compact "host" savable⟩

end StructuredLog.Config
