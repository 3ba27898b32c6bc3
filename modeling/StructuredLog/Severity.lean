import StructuredLog.Text.Blank
import StructuredLog.Text.LetterCase
import StructuredLog.Error

/-!
The ten severities of a message, from the most to the least severe.
-/

namespace StructuredLog

inductive Severity where
  | emergency
  | alert
  | critical
  | error
  | warning
  | notice
  | info
  | debug
  | audit
  | monitor
deriving DecidableEq

namespace Severity

def all : List Severity :=
  [.emergency, .alert, .critical, .error, .warning, .notice, .info, .debug, .audit, .monitor]

/-- The rank of a severity; the most severe has the lowest. -/
def index : Severity → Nat
  | .emergency => 0
  | .alert => 1
  | .critical => 2
  | .error => 3
  | .warning => 4
  | .notice => 5
  | .info => 6
  | .debug => 7
  | .audit => 8
  | .monitor => 9

def atLeast (s t : Severity) : Bool := decide (s.index ≤ t.index)

/-- How far below `t` a severity stands; negative when it is more severe. -/
def distance (s t : Severity) : Int := s.index - t.index

def name : Severity → String
  | .emergency => "EMERGENCY"
  | .alert => "ALERT"
  | .critical => "CRITICAL"
  | .error => "ERROR"
  | .warning => "WARNING"
  | .notice => "NOTICE"
  | .info => "INFO"
  | .debug => "DEBUG"
  | .audit => "AUDIT"
  | .monitor => "MONITOR"

/-- The names that people may write, in small letters. -/
def names : Table Severity :=
  [("emerg", .emergency), ("emergency", .emergency), ("alert", .alert), ("crit", .critical),
   ("critical", .critical), ("err", .error), ("error", .error), ("warn", .warning),
   ("warning", .warning), ("notice", .notice), ("info", .info), ("debug", .debug),
   ("audit", .audit), ("monitor", .monitor)]

/-- The one name that each severity has in documents. -/
def tags : Table Severity :=
  [("emerg", .emergency), ("alert", .alert), ("crit", .critical), ("err", .error),
   ("warning", .warning), ("notice", .notice), ("info", .info), ("debug", .debug),
   ("audit", .audit), ("monitor", .monitor)]

def tag (s : Severity) : String :=
  match tags.find? fun entry => entry.2 = s with
  | some (name, _) => name
  | none => ""

def decoder : Json.Decoder Severity := Json.Decoder.variant tags

end Severity

def foldName (name : String) : String :=
  String.ofList (Text.toSmall (Text.trim name.toList))

def Severity.ofName (name : String) : Except Error Severity :=
  match Table.get? (foldName name) Severity.names with
  | some s => .ok s
  | none => .error (.unknownOption (foldName name))

end StructuredLog
