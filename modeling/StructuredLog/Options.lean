import StructuredLog.Severity

/-!
Options as sets of bits. The low bits name severities, the high ones how a message is treated. An
instance has options, by which it picks its messages, and so has every call.
-/

namespace StructuredLog

structure Options where
  bits : UInt32
deriving DecidableEq

namespace Options

def none : Options := ⟨0⟩

def ofSeverity (s : Severity) : Options := ⟨1 <<< UInt32.ofNat s.index⟩

def traceStack : Options := ⟨0x1000⟩
def noTime : Options := ⟨0x2000⟩
def noDiscover : Options := ⟨0x4000⟩
def exitZero : Options := ⟨0x10000⟩
def exitNegative : Options := ⟨0x20000⟩
def abort : Options := ⟨0x40000⟩

def upError : Options := ⟨0xF⟩
def upWarning : Options := ⟨0x1F⟩
def upInfo : Options := ⟨0x7F⟩

def allSeverities : Options := ⟨0x3FF⟩

def union (a b : Options) : Options := ⟨a.bits ||| b.bits⟩

def contains (a b : Options) : Bool := a.bits &&& b.bits == b.bits

def intersects (a b : Options) : Bool := a.bits &&& b.bits != 0

def isEmpty (a : Options) : Bool := a.bits == 0

def terminating : Options := (exitZero.union exitNegative).union abort

def wantsTermination (a : Options) : Bool := a.intersects terminating

/-- A message of this severity is not for an instance with these options. -/
def ignores (a : Options) (s : Severity) : Bool := !a.contains (ofSeverity s)

/-- What every name stands for, in small letters: a severity by its bit, several severities, or a
way to treat a message. -/
def names : Table Options :=
  [("emerg", ⟨0x1⟩), ("emergency", ⟨0x1⟩), ("alert", ⟨0x2⟩), ("crit", ⟨0x4⟩), ("critical", ⟨0x4⟩),
   ("err", ⟨0x8⟩), ("error", ⟨0x8⟩), ("warn", ⟨0x10⟩), ("warning", ⟨0x10⟩), ("notice", ⟨0x20⟩),
   ("info", ⟨0x40⟩), ("debug", ⟨0x80⟩), ("audit", ⟨0x100⟩), ("monitor", ⟨0x200⟩),
   ("up_error", upError), ("up_warning", upWarning), ("up_info", upInfo), ("all", allSeverities),
   ("trace_stack", traceStack), ("notime", noTime), ("nodiscover", noDiscover),
   ("exit_zero", exitZero), ("exit_negative", exitNegative), ("abort", abort)]

def ofName (name : String) : Except Error Options :=
  match Table.get? (foldName name) names with
  | some options => .ok options
  | Option.none => .error (.unknownOption (foldName name))

/-- All options of a list of names, added to those given; the first unknown name is refused. -/
def addNames (options : Options) : List String → Except Error Options
  | [] => .ok options
  | name :: rest => do addNames (options.union (← ofName name)) rest

def ofNames (list : List String) : Except Error Options := addNames none list

end Options

end StructuredLog
