import StructuredLog.Record.Buffer
import StructuredLog.Text.Search

/-!
The machine that a log is written on, and the identity that records carry.
-/

namespace StructuredLog

/-- What is known of the machine at the time of a call: its name, its processor and its system, the
number and the command of this process, the time of day, and the lines of the calls on the stack. A
call that makes several records looks at the clock for each of them; `timeFor` is what it shows for
the record that the handle with a number gets. -/
structure Host where
  hostname : String
  processor : String
  system : String
  pid : Nat
  command : String
  time : String
  timeFor : Nat → String
  frames : List String

structure Identity where
  process : String
  hostname : String
  pid : Nat
deriving DecidableEq

/-- The last name of a path. Empty names and points count only where they stand alone, and a path
that ends in two points has no last name. -/
def lastName? (path : String) : Option String :=
  match ((Text.splitOn '/' path.toList).filter fun name => name ≠ [] ∧ name ≠ ['.']).getLast? with
  | some name => if name = ['.', '.'] then none else some (String.ofList name)
  | none => none

def processName (executable : String) : String := (lastName? executable).getD executable

namespace Identity

def ofExecutable (host : Host) (executable : String) : Identity :=
  ⟨processName executable, host.hostname, host.pid⟩

def current (host : Host) : Identity := ofExecutable host host.command

def appendTo (who : Identity) (b : Record.Buffer) : Record.Buffer :=
  ((b.appendString "process" who.process).appendString "hostname" who.hostname).appendInteger "pid"
    who.pid

end Identity

end StructuredLog
