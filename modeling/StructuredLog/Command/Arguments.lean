import StructuredLog.Table

/-!
Arguments of a command line. Options have a long name and perhaps a letter; their value stands in
the same argument or in the next one. Words end with the first one that names a subcommand; no
other words are taken.
-/

namespace StructuredLog.Command

/-- What an option takes, and how often it may be given. -/
inductive Arity where
  | flag
  | once
  | repeated
deriving DecidableEq

structure OptionSpec where
  name : String
  letter : Option Char
  arity : Arity
  accepts : String → Bool

structure Grammar where
  options : List OptionSpec
  subcommands : List String

abbrev Given := List (String × String)

/-- What arguments come to. Asking for the version or for help ends everything at once. Before a
subcommand options may be given that are refused, which shows only when the subcommand is
accepted. -/
inductive Parsed where
  | complete (given : Given)
  | subcommand (given : Option Given) (name : String) (args : List String)
  | version
  | help
  | refused

namespace Given

def has (name : String) (given : Given) : Bool := given.any (·.1 == name)

def value? (name : String) (given : Given) : Option String := given.lookup name

def values (name : String) (given : Given) : List String :=
  (given.filter (·.1 == name)).map Prod.snd

end Given

inductive Argument where
  | stop
  | long (name : String) (value : Option String)
  | short (letter : Char) (value : Option String)
  | word

def attached : List Char → Option String
  | [] => none
  | '=' :: rest => some (String.ofList rest)
  | rest => some (String.ofList rest)

def afterEquals : List Char → Option String
  | [] => none
  | _ :: rest => some (String.ofList rest)

def Argument.ofText : List Char → Argument
  | ['-', '-'] => .stop
  | '-' :: '-' :: rest =>
      .long (String.ofList (rest.takeWhile (· != '='))) (afterEquals (rest.dropWhile (· != '=')))
  | '-' :: letter :: rest => .short letter (attached rest)
  | _ => .word

def startsOption (arg : String) : Bool :=
  match arg.toList with
  | '-' :: _ :: _ => true
  | _ => false

/-- One more option, unless it was given before and may not be, or its value is not accepted. -/
def addGiven (o : OptionSpec) (value : String) (given : Given) : Option Given :=
  if o.arity ≠ .repeated ∧ given.has o.name then none
  else if o.accepts value then some (given ++ [(o.name, value)])
  else none

inductive Use where
  | take (o : OptionSpec) (value : String)
  | await (o : OptionSpec)
  | version
  | help
  | refuse

def Use.ofOption (found : Option OptionSpec) (value : Option String) : Use :=
  match found with
  | none => .refuse
  | some o => match o.arity, value with
    | .flag, none => .take o ""
    | .flag, some _ => .refuse
    | _, some value => .take o value
    | _, none => .await o

def Grammar.use (g : Grammar) : Argument → Use
  | .long "version" none => .version
  | .long "help" none => .help
  | .long name value => .ofOption (g.options.find? (·.name == name)) value
  | .short 'V' _ => .version
  | .short 'h' _ => .help
  | .short letter value => .ofOption (g.options.find? (·.letter == some letter)) value
  | .stop | .word => .refuse

/-- The option that was named last, as long as its value is missing or was not looked at. -/
inductive Waiting where
  | nothing
  | named (o : OptionSpec)
  | valued (o : OptionSpec) (text : String)

def Waiting.settle (given : Given) : Waiting → Option Given
  | .nothing => some given
  | .named _ => none
  | .valued o text => addGiven o text given

/-- Reads arguments from the left. A value in an argument of its own is looked at only when the next
option or the end comes, and is none when it looks like an option itself. -/
def Grammar.parse (g : Grammar) : Waiting → Given → List String → Parsed
  | waiting, given, [] => match waiting.settle given with
    | some given => .complete given
    | none => .refused
  | .named o, given, arg :: rest =>
      if startsOption arg then .refused else g.parse (.valued o arg) given rest
  | waiting, given, arg :: rest =>
      if g.subcommands.contains arg then .subcommand (waiting.settle given) arg rest
      else match waiting.settle given, Argument.ofText arg.toList with
        | none, _ => .refused
        | some given, .stop => if rest.isEmpty then .complete given else .refused
        | some given, form => match g.use form with
          | .take o value => match addGiven o value given with
            | some given => g.parse .nothing given rest
            | none => .refused
          | .await o => g.parse (.named o) given rest
          | .version => .version
          | .help => .help
          | .refuse => .refused

end StructuredLog.Command
