import StructuredLog.Binary64.Literal
import StructuredLog.Command.Arguments
import StructuredLog.Config.Settings
import StructuredLog.Record.Field

/-!
The commands: a configuration is merged and expanded, a message is logged, or the version is shown.
-/

namespace StructuredLog

open Config (Request Substitution)
open Record (FieldValue Fields)

structure ConfigCommand where
  files : String
  request : Request

structure LogCommand where
  config : Option String
  severity : Severity
  message : String
  fields : List String
  options : List String

inductive Command where
  | config (c : ConfigCommand)
  | log (c : LogCommand)
  | version

namespace Command

inductive Reading where
  | run (level : Option String) (command : Command)
  | about (text : String)
  | refused

def anyText (_ : String) : Bool := true

def policy? (text : String) : Option FailurePolicy :=
  Table.get? (Text.lowered text) FailurePolicy.tags

def severity? (text : String) : Option Severity := (Severity.ofName text).toOption

def levelOption : OptionSpec := ⟨"log-level", some 'l', .once, anyText⟩

def configGrammar : Grammar where
  options :=
    [levelOption, ⟨"fixed", none, .once, anyText⟩, ⟨"variable", none, .once, anyText⟩,
     ⟨"files", none, .once, anyText⟩, ⟨"params", none, .once, anyText⟩,
     ⟨"print", none, .flag, anyText⟩, ⟨"verbose", none, .flag, anyText⟩,
     ⟨"quit", none, .once, fun text => (policy? text).isSome⟩, ⟨"tree", none, .flag, anyText⟩]
  subcommands := []

def logGrammar : Grammar where
  options :=
    [levelOption, ⟨"config", some 'c', .once, (· != "")⟩,
     ⟨"severity", some 's', .once, fun text => (severity? text).isSome⟩,
     ⟨"msg", some 'm', .once, anyText⟩, ⟨"field", some 'f', .repeated, anyText⟩,
     ⟨"option", some 'o', .repeated, anyText⟩]
  subcommands := []

def versionGrammar : Grammar := ⟨[levelOption], []⟩

def helpWord : String := "help"

def topGrammar : Grammar := ⟨[levelOption], ["config", "log", "version", helpWord]⟩

def configOf (given : Given) : ConfigCommand where
  files := (given.value? "files").getD ""
  request := {
    printMerged := given.has "verbose"
    printResult := given.has "print"
    fixed := (given.value? "fixed").getD ""
    initial := (given.value? "variable").getD ""
    files := []
    parameters := (given.value? "params").getD ""
    onFailure := ((given.value? "quit").bind policy?).getD .carryOn
    substitution := if given.has "tree" then .tree else .text }

def logOf? (given : Given) : Option LogCommand :=
  (given.value? "msg").map fun message => {
    config := given.value? "config"
    severity := ((given.value? "severity").bind severity?).getD .info
    message
    fields := given.values "field"
    options := given.values "option" }

def name : String := "jlog"

def versionLine (program : String) : String := program ++ " " ++ Config.version

def subcommand? : String → Option (Grammar × (Given → Option Command))
  | "config" => some (configGrammar, fun given => some (.config (configOf given)))
  | "log" => some (logGrammar, fun given => (logOf? given).map .log)
  | "version" => some (versionGrammar, fun _ => some .version)
  | _ => none

def readHelp : List String → Reading
  | [] => .about ""
  | [word] => if topGrammar.subcommands.contains word then .about "" else .refused
  | _ => .refused

/-- Reads the arguments of a subcommand, which has its own level option. -/
def readSubcommand (level : Option String) (word : String) (args : List String) : Reading :=
  match subcommand? word with
  | none => if word = helpWord then readHelp args else .refused
  | some (grammar, build) => match grammar.parse .nothing [] args with
    | .complete given => match build given with
      | some command => .run ((given.value? levelOption.name).or level) command
      | none => .refused
    | .version => .about (versionLine (name ++ "-" ++ word))
    | .help => .about ""
    | .subcommand .. | .refused => .refused

/-- A command counts only when the options before its name do. -/
def Reading.after (given : Option Given) : Reading → Reading
  | .run level command => if given.isSome then .run level command else .refused
  | reading => reading

def read (args : List String) : Reading :=
  match topGrammar.parse .nothing [] args with
  | .subcommand given word rest =>
      (readSubcommand (given.bind (·.value? levelOption.name)) word rest).after given
  | .complete _ | .refused => .refused
  | .version => .about (versionLine name)
  | .help => .about ""

/-- A value as it is meant: a whole number of 64 bits, a number, or a text. -/
def fieldValue (text : String) : FieldValue :=
  let whole := (Binary64.wholeNumber? text.toList).bind Json.Integer.ofInt?
  match whole.bind Json.Integer.signed? with
  | some i => .int i
  | none => match Binary64.ofLiteral? text.toList with
    | some x => .real x
    | none => .str text

def field? (text : String) : Option (String × FieldValue) :=
  match text.toList.dropWhile (· != '=') with
  | [] => none
  | _ :: value =>
      some (String.ofList (text.toList.takeWhile (· != '=')), fieldValue (String.ofList value))

end Command

def LogCommand.record? (c : LogCommand) : Option Fields :=
  (c.fields.mapM Command.field?).map fun fields => (Fields.messageKey, .str c.message) :: fields

end StructuredLog
