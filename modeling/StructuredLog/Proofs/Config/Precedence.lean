import Mathlib.Data.List.Forall2
import StructuredLog.Config.Request
import StructuredLog.Proofs.Config.Expansion
import StructuredLog.Proofs.Config.Merge
import StructuredLog.Proofs.Json.Reading

/-!
Which source decides what a configuration holds on a path of keys. The fixed source keeps its
scalars; where it has nothing to say the last of the others that has something to say decides; and
nothing is in the result that is in no source.
-/

namespace StructuredLog.Config

open Json (Value Members)

theorem parse_distinct {source : String} {text : List Char} {v : Value}
    (loaded : parse source text = .ok v) : v.Distinct := by
  unfold parse at loaded
  split at loaded
  · next read =>
    cases loaded
    exact Json.read_distinct read
  · cases loaded

theorem toObject_ok {source : String} {v : Value} {members : Members}
    (object : toObject source v = .ok members) : v = .obj members := by
  cases v with
  | obj own =>
    cases object
    rfl
  | _ => cases object

theorem loadObject_distinct {text source : String} {members : Members}
    (loaded : loadObject text source = .ok members) : (Value.obj members).Distinct := by
  unfold loadObject at loaded
  split at loaded
  · cases loaded
    refine .obj List.nodup_nil ?_
    intro entry member
    cases member
  · obtain ⟨v, parsed, object⟩ := bind_ok loaded
    rw [← toObject_ok object]
    exact parse_distinct parsed

def fileObject (tree : FileTree) (path : String) : Except Error Members := do
  toObject path (← loadFile tree path)

theorem loadFile_distinct {tree : FileTree} {path : String} {v : Value}
    (loaded : loadFile tree path = .ok v) : v.Distinct := by
  unfold loadFile at loaded
  split at loaded
  · cases loaded
  · cases loaded
  · next data _ =>
    obtain ⟨text, _, parsed⟩ := bind_ok loaded
    exact parse_distinct parsed

theorem fileObject_distinct {tree : FileTree} {path : String} {members : Members}
    (loaded : fileObject tree path = .ok members) : (Value.obj members).Distinct := by
  obtain ⟨v, parsed, object⟩ := bind_ok loaded
  rw [← toObject_ok object]
  exact loadFile_distinct parsed

structure Loads (tree : FileTree) (r : Request) (fixed initial : Members) (files : List Members)
    (parameters : Members) : Prop where
  fixed : loadObject r.fixed "fixed config" = .ok fixed
  initial : loadObject r.initial "variable config" = .ok initial
  files : List.Forall₂ (fun path members => fileObject tree path = .ok members) r.files files
  parameters : loadObject r.parameters "parameter config" = .ok parameters

/-- A source speaks of a path: it has something there, or something other than an object on the way
there. -/
def Speaks (path : List String) (source : Members) : Prop :=
  ∃ lead v, lead ≠ [] ∧ lead <+: path ∧ at? lead (.obj source) = some v ∧
    (lead = path ∨ v.kind ≠ .object)

theorem leavesOpen_of_silent {key : String} {path : List String} {source : Members}
    (silent : ¬Speaks (key :: path) source) : LeavesOpen (key :: path) (.obj source) := by
  induction path generalizing key source with
  | nil =>
    intro v found
    exact absurd ⟨[key], v, by simp, List.prefix_rfl, at?_obj found, .inl rfl⟩ silent
  | cons next path ih =>
    intro v found
    cases v with
    | obj members =>
      apply ih
      rintro ⟨lead, w, nonempty, before, under, last⟩
      apply silent
      refine ⟨key :: lead, w, by simp, List.cons_prefix_cons.mpr ⟨rfl, before⟩,
        (at?_obj found).trans under, ?_⟩
      exact last.imp_left (congrArg (key :: ·))
    | _ =>
      refine absurd ⟨[key], _, by simp, by simp, at?_obj found, .inr ?_⟩ silent
      simp [Value.kind]

def overlay (first : Members) (others : List Members) : Members :=
  others.foldl (mergeMembers true) first

theorem overlay_at (first : Members) (before : List Members) (m : Members)
    (after : List Members) :
    overlay first (before ++ m :: after) =
      overlay (mergeMembers true (overlay first before) m) after := by
  rw [overlay, List.foldl_append]
  rfl

theorem overlay_distinct {first : Members} {others : List Members}
    (own : (Value.obj first).Distinct) (distinct : ∀ m ∈ others, (Value.obj m).Distinct) :
    (Value.obj (overlay first others)).Distinct := by
  induction others generalizing first with
  | nil => exact own
  | cons m rest ih =>
    rw [List.forall_mem_cons] at distinct
    exact ih (merge_distinct true own distinct.1) distinct.2

theorem overlay_open {first : Members} {others : List Members} {path : List String}
    (distinct : ∀ m ∈ others, (Value.obj m).Distinct)
    (leave : ∀ m ∈ others, LeavesOpen path (.obj m)) :
    at? path (.obj (overlay first others)) = at? path (.obj first) := by
  induction others generalizing first with
  | nil => rfl
  | cons m rest ih =>
    rw [List.forall_mem_cons] at distinct leave
    have merged := at?_open_source (.obj first) distinct.1 leave.1
    exact (ih distinct.2 leave.2).trans merged

theorem overlay_last {first : Members} {others before after : List Members} {source : Members}
    {path : List String} {v : Value} (order : first :: others = before ++ source :: after)
    (distinct : ∀ m ∈ others, (Value.obj m).Distinct) (scalar : v.isScalar = true)
    (leave : ∀ m ∈ after, LeavesOpen path (.obj m)) (found : at? path (.obj source) = some v) :
    at? path (.obj (overlay first others)) = some v := by
  cases before with
  | nil =>
    obtain ⟨rfl, rfl⟩ := List.cons.inj order
    rw [overlay_open distinct leave]
    exact found
  | cons m before =>
    obtain ⟨rfl, rest⟩ := List.cons.inj order
    have rest : others = before ++ source :: after := rest
    subst rest
    have own := distinct source (List.mem_append_right _ List.mem_cons_self)
    have later : ∀ m ∈ after, (Value.obj m).Distinct := fun m member =>
      distinct m (List.mem_append_right _ (List.mem_cons_of_mem _ member))
    have merged := at?_source (.obj (overlay first before)) own scalar found
    rw [overlay_at, overlay_open later leave]
    exact merged

theorem overlay_merged {first : Members} {others : List Members} {path : List String} {v : Value}
    (distinct : ∀ m ∈ others, (Value.obj m).Distinct) (scalar : v.isScalar = true)
    (found : at? path (.obj (overlay first others)) = some v) :
    ∃ m ∈ first :: others, at? path (.obj m) = some v := by
  induction others generalizing first with
  | nil => exact ⟨first, List.mem_cons_self, found⟩
  | cons m rest ih =>
    rw [List.forall_mem_cons] at distinct
    obtain ⟨source, member, stands⟩ := ih distinct.2 found
    rcases List.mem_cons.mp member with rfl | later
    · rcases at?_merged true (.obj first) distinct.1 scalar stands with old | new
      · exact ⟨first, List.mem_cons_self, old⟩
      · exact ⟨m, List.mem_cons_of_mem _ List.mem_cons_self, new⟩
    · exact ⟨source, List.mem_cons_of_mem _ (List.mem_cons_of_mem _ later), stands⟩

theorem overlay_empty {first : Members} {others : List Members}
    (empty : ∀ m ∈ others, m = []) : overlay first others = first := by
  induction others with
  | nil => rfl
  | cons m rest ih =>
    rw [List.forall_mem_cons] at empty
    obtain ⟨rfl, later⟩ := empty
    exact ih later

theorem overlay_only {first : Members} {others before after : List Members} {only : Members}
    (order : first :: others = before ++ only :: after) (distinct : (Table.keys only).Nodup)
    (empty : ∀ m ∈ before ++ after, m = []) : overlay first others = only := by
  cases before with
  | nil =>
    obtain ⟨rfl, rfl⟩ := List.cons.inj order
    exact overlay_empty empty
  | cons m before =>
    obtain ⟨rfl, rest⟩ := List.cons.inj order
    have rest : others = before ++ only :: after := rest
    subst rest
    rw [List.cons_append, List.forall_mem_cons] at empty
    obtain ⟨rfl, others⟩ := empty
    have first : overlay [] before = [] :=
      overlay_empty fun m member => others m (List.mem_append_left _ member)
    have comes : mergeMembers true [] only = only :=
      mergeMembers_new true distinct fun key _ absent => by cases absent
    rw [overlay_at, first, comes]
    exact overlay_empty fun m member => others m (List.mem_append_right _ member)

theorem mergeFiles_cons (tree : FileTree) (first : Members) (path : String) (paths : List String) :
    Request.mergeFiles tree first (path :: paths) =
      (fileObject tree path).bind fun members =>
        Request.mergeFiles tree (mergeMembers true first members) paths := by
  rw [Request.mergeFiles, fileObject]
  cases loadFile tree path <;> rfl

theorem mergeFiles_overlay {tree : FileTree} {paths : List String} {files : List Members}
    (loaded : List.Forall₂ (fun path members => fileObject tree path = .ok members) paths files)
    (first : Members) :
    Request.mergeFiles tree first paths = .ok (overlay first files) := by
  induction loaded generalizing first with
  | nil => rfl
  | cons own _ ih =>
    rw [mergeFiles_cons, own]
    exact ih _

theorem fileObjects_distinct {tree : FileTree} {paths : List String} {files : List Members}
    (loaded : List.Forall₂ (fun path members => fileObject tree path = .ok members) paths files) :
    ∀ m ∈ files, (Value.obj m).Distinct := by
  induction loaded with
  | nil => exact List.forall_mem_nil _
  | cons own _ ih => exact List.forall_mem_cons.mpr ⟨fileObject_distinct own, ih⟩

/-- Files and parameters come over the initial object in their order, and all of it under the
fixed one. -/
theorem Loads.merged {tree : FileTree} {r : Request} {fixed initial parameters : Members}
    {files : List Members} (loads : Loads tree r fixed initial files parameters) :
    r.merged tree =
      .ok (mergeMembers false fixed (overlay initial (files ++ [parameters]))) := by
  have last := overlay_at initial files parameters []
  rw [Request.merged, loads.fixed, loads.initial, loads.parameters, last]
  simp only [Except.bind, bind, mergeFiles_overlay loads.files]
  rfl

theorem Loads.distinct {tree : FileTree} {r : Request} {fixed initial parameters : Members}
    {files : List Members} (loads : Loads tree r fixed initial files parameters) :
    ∀ m ∈ fixed :: initial :: (files ++ [parameters]), (Value.obj m).Distinct := by
  rw [List.forall_mem_cons, List.forall_mem_cons, List.forall_mem_append, List.forall_mem_singleton]
  exact ⟨loadObject_distinct loads.fixed, loadObject_distinct loads.initial,
    fileObjects_distinct loads.files, loadObject_distinct loads.parameters⟩

/-- Merged sources that nothing is left to do with: they hold no variables, and no key is a
template. -/
structure Plain (merged : Members) : Prop where
  noVariables : Table.get? variablesKey merged = none
  noTemplates : ∀ shape, Untemplated shape (.obj merged)

theorem expanded_plain (hostname : String) (r : Request) {merged : Members}
    (plain : Plain merged) : (r.expanded hostname merged).final = some (.ok (.obj merged)) := by
  have applied : applyVariables r.substitution hostname (.obj merged) = .ok (.obj merged) := by
    rw [applyVariables, plain.noVariables]
  rw [Request.expanded, Eventual.final_bind, expandAll_same r.substitution plain.noTemplates]
  exact (Eventual.final_lift _).trans (congrArg some applied)

/-- How sources decide a configuration, the later ones of `sources` over the earlier ones. -/
structure Decides (fixed : Members) (sources : List Members) (result : Members) : Prop where
  /-- What the fixed source says stays. -/
  kept : ∀ path v, v.isScalar = true → at? path (.obj fixed) = some v →
    at? path (.obj result) = some v
  /-- Where it is silent the last source that speaks decides. -/
  decided : ∀ path v before source after, sources = before ++ source :: after →
    v.isScalar = true → at? path (.obj source) = some v → ¬Speaks path fixed →
    (∀ later ∈ after, ¬Speaks path later) → at? path (.obj result) = some v
  /-- Nothing comes from elsewhere. -/
  origin : ∀ path v, v.isScalar = true → at? path (.obj result) = some v →
    ∃ source ∈ fixed :: sources, at? path (.obj source) = some v
  /-- A source without others is the result. -/
  only : ∀ before source after, fixed :: sources = before ++ source :: after →
    (∀ other ∈ before ++ after, other = []) → result = source

theorem merged_decides {fixed initial : Members} {others : List Members}
    (distinct : ∀ m ∈ fixed :: initial :: others, (Value.obj m).Distinct) :
    Decides fixed (initial :: others) (mergeMembers false fixed (overlay initial others)) := by
  obtain ⟨-, each⟩ := List.forall_mem_cons.mp distinct
  obtain ⟨initialKeys, otherKeys⟩ := List.forall_mem_cons.mp each
  have laid := overlay_distinct initialKeys otherKeys
  refine ⟨?_, ?_, ?_, ?_⟩
  · intro path v scalar found
    exact at?_target (.obj fixed) laid scalar found
  · intro path v before source after order scalar found silent later
    cases path with
    | nil =>
      cases found
      cases scalar
    | cons key path =>
      have leave : ∀ m ∈ after, LeavesOpen (key :: path) (.obj m) :=
        fun m member => leavesOpen_of_silent (later m member)
      have decided := overlay_last order otherKeys scalar leave found
      have under := at?_open_target (.obj fixed) laid (leavesOpen_of_silent silent)
      exact under.trans decided
  · intro path v scalar found
    rcases at?_merged false (.obj fixed) laid scalar found with own | under
    · exact ⟨fixed, List.mem_cons_self, own⟩
    · obtain ⟨source, member, stands⟩ := overlay_merged otherKeys scalar under
      exact ⟨source, List.mem_cons_of_mem _ member, stands⟩
  · intro before source after order empty
    cases before with
    | nil =>
      obtain ⟨rfl, rest⟩ := List.cons.inj order
      have rest : initial :: others = after := rest
      subst rest
      obtain ⟨rfl, later⟩ := List.forall_mem_cons.mp empty
      rw [overlay_empty later]
      rfl
    | cons m before =>
      obtain ⟨rfl, rest⟩ := List.cons.inj order
      rw [List.cons_append, List.forall_mem_cons] at empty
      obtain ⟨rfl, emptyOthers⟩ := empty
      have own : source ∈ initial :: others := rest ▸ List.mem_append_right _ List.mem_cons_self
      have keys := (each source own).keys
      rw [overlay_only rest keys emptyOthers]
      exact mergeMembers_new false keys fun key _ absent => by cases absent

theorem document_decided (tree : FileTree) (hostname : String) (r : Request)
    {fixed initial parameters : Members} {files : List Members}
    (loads : Loads tree r fixed initial files parameters)
    (plain : ∀ merged, r.merged tree = .ok merged → Plain merged) :
    ∃ result, (r.document tree hostname).final = some (.ok (.obj result)) ∧
      Decides fixed (initial :: files ++ [parameters]) result := by
  refine ⟨_, ?_, merged_decides loads.distinct⟩
  have expanded := expanded_plain hostname r (plain _ loads.merged)
  rw [Request.document, loads.merged]
  exact expanded

def layered : Request :=
  { Request.empty with
    fixed := "\x7b\"level\": \"error\"\x7d"
    initial := "\x7b\"level\": \"info\", \"sink\": \x7b\"path\": \"a\"\x7d\x7d"
    files := ["/site"]
    parameters := "\x7b\"sink\": \x7b\"path\": \"c\"\x7d\x7d" }

def layeredFiles : FileTree :=
  (FileTree.empty []).set ["site"]
    (.file (Text.encode "\x7b\"sink\": \x7b\"path\": \"b\"\x7d\x7d".toList))

theorem layered_loads : Loads layeredFiles layered [("level", .str "error")]
    [("level", .str "info"), ("sink", .obj [("path", .str "a")])]
    [[("sink", .obj [("path", .str "b")])]] [("sink", .obj [("path", .str "c")])] :=
  ⟨by rfl, by rfl, .cons (by rfl) .nil, by rfl⟩

theorem layered_plain : Plain [("level", .str "error"), ("sink", .obj [("path", .str "c")])] := by
  refine ⟨rfl, fun shape => ?_⟩
  have sink : Untemplated shape (.obj [("path", .str "c")]) := by
    refine .obj (by cases shape <;> decide) ?_
    exact List.forall_mem_singleton.mpr (.scalar rfl)
  refine .obj (by cases shape <;> decide) ?_
  exact List.forall_mem_cons.mpr ⟨.scalar rfl, List.forall_mem_singleton.mpr sink⟩

/-- The parameters have the last word on what the fixed part leaves open. -/
theorem parameters_decide :
    ∃ result, (layered.document layeredFiles "host").final = some (.ok (.obj result)) ∧
      at? ["level"] (.obj result) = some (.str "error") ∧
      at? ["sink", "path"] (.obj result) = some (.str "c") := by
  have plain : ∀ merged, layered.merged layeredFiles = .ok merged → Plain merged := by
    intro merged same
    have given := layered_loads.merged.symm.trans same
    cases given
    exact layered_plain
  obtain ⟨result, done, decides⟩ :=
    document_decided layeredFiles "host" layered layered_loads plain
  refine ⟨result, done, decides.kept ["level"] (.str "error") rfl rfl, ?_⟩
  refine decides.decided ["sink", "path"] (.str "c") [_, _] _ [] rfl rfl rfl ?_ ?_
  · rintro ⟨lead, v, nonempty, before, found, -⟩
    cases lead with
    | nil => exact nonempty rfl
    | cons key lead =>
      obtain ⟨rfl, -⟩ := List.cons_prefix_cons.mp before
      cases found
  · exact List.forall_mem_nil _

end StructuredLog.Config
