import StructuredLog.Config.Request
import StructuredLog.Options

/-!
The settings of an application: its log, with the handlers to open, and its diagnostics. They are a
configuration like any other, so templates and variables may be used in them.
-/

namespace StructuredLog.Config

open Json (Value Decoder)

structure HandlerSpec where
  name : String
  type : String
  options : List String
  params : Value

structure LogSettings where
  appName : String
  appVersion : String
  handlers : List HandlerSpec
  maxTypes : UInt64
  indented : Bool

structure Diagnostics where
  level : String
  asJson : Bool
  directives : Option String
deriving DecidableEq

structure Settings where
  logging : LogSettings
  diagnostics : Diagnostics

def version : String := "0.1.0"

def usualMaxTypes : UInt64 := 10

namespace HandlerSpec

def new (name type : String) : HandlerSpec := ⟨name, type, [], .obj []⟩

def decoder : Decoder HandlerSpec :=
  Decoder.record "HandlerSpec"
    [Decoder.requiredField "name" Decoder.string fun s h => { h with name := s },
     Decoder.requiredField "type" Decoder.string fun s h => { h with type := s },
     Decoder.field "options" (Decoder.list Decoder.string) fun names h =>
       { h with options := names },
     Decoder.field "params" Decoder.any fun v h => { h with params := v }]
    (new "" "")

def toValue (h : HandlerSpec) : Value :=
  .obj [("name", .str h.name), ("type", .str h.type), ("options", .arr (h.options.map .str)),
    ("params", h.params)]

def same (a b : HandlerSpec) : Bool :=
  a.name == b.name && a.type == b.type && a.options == b.options && a.params.same b.params

end HandlerSpec

namespace LogSettings

def usual : LogSettings := ⟨"jlog", version, [], usualMaxTypes, false⟩

def decoder : Decoder LogSettings :=
  Decoder.record "LogSettings"
    [Decoder.field "app_name" Decoder.string fun s l => { l with appName := s },
     Decoder.field "app_version" Decoder.string fun s l => { l with appVersion := s },
     Decoder.field "handlers" (Decoder.list HandlerSpec.decoder) fun specs l =>
       { l with handlers := specs },
     Decoder.field "max_handler_types" Decoder.unsigned fun n l => { l with maxTypes := n },
     Decoder.field "indented" Decoder.boolean fun b l => { l with indented := b }]
    usual

def toValue (l : LogSettings) : Value :=
  .obj [("app_name", .str l.appName), ("app_version", .str l.appVersion),
    ("handlers", .arr (l.handlers.map HandlerSpec.toValue)),
    ("max_handler_types", .num (.integer (.ofUInt64 l.maxTypes))), ("indented", .bool l.indented)]

def same (a b : LogSettings) : Bool :=
  a.appName == b.appName && a.appVersion == b.appVersion &&
    (a.handlers.length == b.handlers.length &&
      (a.handlers.zip b.handlers).all fun (x, y) => x.same y) &&
    a.maxTypes == b.maxTypes && a.indented == b.indented

end LogSettings

namespace Diagnostics

def usual : Diagnostics := ⟨"warn", false, none⟩

def decoder : Decoder Diagnostics :=
  Decoder.record "DiagnosticsConfig"
    [Decoder.field "level" Decoder.string fun s d => { d with level := s },
     Decoder.field "json_format" Decoder.boolean fun b d => { d with asJson := b },
     Decoder.field "filter_directives" (Decoder.optional Decoder.string) fun s d =>
       { d with directives := s }]
    usual

def toValue (d : Diagnostics) : Value :=
  .obj [("level", .str d.level), ("json_format", .bool d.asJson),
    ("filter_directives", match d.directives with
      | some s => .str s
      | none => .null)]

end Diagnostics

structure Reporter where
  level : String
  asJson : Bool
  directives : Option String
  colors : Bool
  target : Bool
deriving DecidableEq

namespace Reporter

def usual : Reporter := ⟨"warn", false, none, true, true⟩

def ofDiagnostics (d : Diagnostics) : Reporter :=
  { usual with
    level := d.level, asJson := d.asJson, directives := d.directives, colors := !d.asJson }

end Reporter

namespace Settings

def usual : Settings := ⟨.usual, .usual⟩

def decoder : Decoder Settings :=
  Decoder.record "CoreConfig"
    [Decoder.field "logging" LogSettings.decoder fun l s => { s with logging := l },
     Decoder.field "diagnostics" Diagnostics.decoder fun d s => { s with diagnostics := d }]
    usual

def toValue (s : Settings) : Value :=
  .obj [("logging", s.logging.toValue), ("diagnostics", s.diagnostics.toValue)]

/-- Equality of settings; parameters are compared as documents. -/
def same (a b : Settings) : Bool :=
  a.logging.same b.logging && a.diagnostics == b.diagnostics

def ofValue (v : Value) : Except Error Settings :=
  match decoder v with
  | .ok s => .ok s
  | .error e => .error (.json e)

def ofRequest (tree : FileTree) (hostname : String) (r : Request) : Eventual Settings := do
  ofValue (← r.document tree hostname)

def ofText (hostname text : String) : Eventual Settings :=
  ofRequest (.empty []) hostname { Request.empty with initial := text }

def ofFile (tree : FileTree) (hostname path : String) : Eventual Settings :=
  ofRequest tree hostname { Request.empty with files := [path] }

def read? (text : String) : Option Settings :=
  match Json.read text.toList with
  | .ok v => (decoder v).toOption
  | .error _ => none

/-- How diagnostics are written; a level given by the caller has precedence. -/
def reporter (s : Settings) (level : Option String) : Reporter :=
  let r := Reporter.ofDiagnostics s.diagnostics
  { r with level := level.getD r.level }

end Settings

end StructuredLog.Config
