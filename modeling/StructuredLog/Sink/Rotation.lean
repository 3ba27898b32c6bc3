import StructuredLog.Text.LetterCase

/-!
How often a log file gives way to a new one, whose name then ends in the time at which it was begun.
-/

namespace StructuredLog.Sink

inductive Rotation where
  | never
  | minutely
  | hourly
  | daily
deriving DecidableEq

namespace Rotation

/-- The rotation that a name stands for, in any letter case; an unknown name stands for a day. -/
def ofName (name : String) : Rotation :=
  match Text.lowered name with
  | "never" | "none" => .never
  | "minutely" | "minute" => .minutely
  | "hourly" | "hour" => .hourly
  | _ => .daily

def name : Rotation → String
  | .never => "never"
  | .minutely => "minutely"
  | .hourly => "hourly"
  | .daily => "daily"

/-- How much of a time is shown, out of year, month, day, hour and minute with hyphens between. -/
def shown (time : String) : Rotation → String
  | .never => ""
  | .minutely => time
  | .hourly => String.ofList (time.toList.take 13)
  | .daily => String.ofList (time.toList.take 10)

def fileName (stem time : String) (rotation : Rotation) : String :=
  match rotation with
  | .never => stem ++ ".log"
  | _ => stem ++ ".log." ++ rotation.shown time

end Rotation

end StructuredLog.Sink
