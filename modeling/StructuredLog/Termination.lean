import StructuredLog.Json.Decode

/-!
How a process is asked to end, and what is asked for when a configuration cannot be loaded.
-/

namespace StructuredLog

inductive Termination where
  | exit (code : Int)
  | abort
deriving DecidableEq

/-- What follows on a configuration that cannot be loaded, beside the error itself. -/
inductive FailurePolicy where
  | carryOn
  | exit
  | abort
deriving DecidableEq

namespace FailurePolicy

def tags : Table FailurePolicy := [("continue", .carryOn), ("exit", .exit), ("abort", .abort)]

def tag : FailurePolicy → String
  | .carryOn => "continue"
  | .exit => "exit"
  | .abort => "abort"

def decoder : Json.Decoder FailurePolicy := Json.Decoder.variant tags

def termination? : FailurePolicy → Option Termination
  | .carryOn => none
  | .exit => some (.exit (-1))
  | .abort => some .abort

end FailurePolicy

end StructuredLog
