import StructuredLog.Config.Source
import StructuredLog.Config.Template
import StructuredLog.Termination

/-!
Configurations out of several sources. Files and parameters are merged into the initial
configuration, later ones having precedence, and the result is merged into the fixed one, which
overrules them all. Then templates are expanded and variables replaced.
-/

namespace StructuredLog.Config

open Json (Value Members Decoder)

structure Request where
  printMerged : Bool
  printResult : Bool
  fixed : String
  initial : String
  files : List String
  parameters : String
  onFailure : FailurePolicy
  substitution : Substitution
deriving DecidableEq

def variablesKey : String := "__json_config_variables__"

def hostnameKey : String := "__hostname__"

namespace Request

def empty : Request := ⟨false, false, "", "", [], "", .carryOn, .text⟩

def decoder : Decoder Request :=
  Decoder.record "JsonConfigRequest"
    [Decoder.field "print_verbose" Decoder.boolean fun b r => { r with printMerged := b },
     Decoder.field "print_final" Decoder.boolean fun b r => { r with printResult := b },
     Decoder.field "fixed_config" Decoder.string fun s r => { r with fixed := s },
     Decoder.field "variable_config" Decoder.string fun s r => { r with initial := s },
     Decoder.field "files" (Decoder.list Decoder.path) fun paths r => { r with files := paths },
     Decoder.field "parameter_config" Decoder.string fun s r => { r with parameters := s },
     Decoder.field "quit_policy" FailurePolicy.decoder fun p r => { r with onFailure := p },
     Decoder.field "substitution" Substitution.decoder fun s r => { r with substitution := s }]
    empty

def toValue (r : Request) : Value :=
  .obj
    [("print_verbose", .bool r.printMerged), ("print_final", .bool r.printResult),
     ("fixed_config", .str r.fixed), ("variable_config", .str r.initial),
     ("files", .arr (r.files.map .str)), ("parameter_config", .str r.parameters),
     ("quit_policy", .str r.onFailure.tag), ("substitution", .str r.substitution.tag)]

def mergeFiles (tree : FileTree) (merged : Members) : List String → Except Error Members
  | [] => .ok merged
  | path :: rest => do
      let members ← toObject path (← loadFile tree path)
      mergeFiles tree (mergeMembers true merged members) rest

/-- All sources as one object. They are read in this order, and the first that fails decides. -/
def merged (tree : FileTree) (r : Request) : Except Error Members := do
  let fixed ← loadObject r.fixed "fixed config"
  let initial ← loadObject r.initial "variable config"
  let filed ← mergeFiles tree initial r.files
  let parameters ← loadObject r.parameters "parameter config"
  .ok (mergeMembers false fixed (mergeMembers true filed parameters))

end Request

def applyVariables (mode : Substitution) (hostname : String) : Value → Except Error Value
  | .obj members =>
      match Table.get? variablesKey members with
      | none => .ok (.obj members)
      | some (.obj vars) =>
          replaceVariables mode (Table.put hostnameKey (.str hostname) vars)
            (.obj (Table.erase variablesKey members))
      | some other => .error (.badTemplate (.variablesNotObject variablesKey other.kind))
  | v => .ok v

namespace Request

def expanded (hostname : String) (r : Request) (merged : Members) : Eventual Value := do
  applyVariables r.substitution hostname (← expandAll r.substitution (.obj merged))

/-- The configuration that is asked for, unless its templates expand without end. -/
def document (tree : FileTree) (hostname : String) (r : Request) : Eventual Value := do
  r.expanded hostname (← r.merged tree)

end Request

/-- What came of a request: the text of the configuration or why there is none, the texts printed
on the way, and how the process was asked to end. -/
structure Report where
  result : Except Error String
  printed : List String
  terminations : List Termination

namespace Request

def failed (r : Request) (printed : List String) (e : Error) : Report :=
  ⟨.error e, printed, r.onFailure.termination?.toList⟩

def succeeded (r : Request) (printed : List String) (v : Value) : Report :=
  if r.printMerged || r.printResult then ⟨.ok v.pretty, printed ++ [v.pretty], [.exit 0]⟩
  else ⟨.ok v.pretty, printed, []⟩

/-- Carries a request out. The merged sources are printed as soon as they are there. Nothing is
reported of templates that expand without end. -/
def run (tree : FileTree) (hostname : String) (r : Request) : Delay Report :=
  match r.merged tree with
  | .error e => return r.failed [] e
  | .ok members => do
      let printed := if r.printMerged then [(Value.obj members).pretty] else []
      match ← (r.expanded hostname members).run with
      | .error e => return r.failed printed e
      | .ok v => return r.succeeded printed v

end Request

end StructuredLog.Config
