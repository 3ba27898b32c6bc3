import StructuredLog.Text.Quoted

/-!
Stack traces as lines, and the latch that keeps one capture from starting inside another.
-/

namespace StructuredLog.Stack

structure Frame where
  name : String
  instruction : Nat
  stack : Nat
  offset : Nat

def padRight (width : Nat) (text : String) : String :=
  text ++ String.ofList (List.replicate (width - text.length) ' ')

def address (n : Nat) : String := "0x" ++ String.ofList (Text.hexDigits n)

def Frame.line (index : Nat) (f : Frame) : String :=
  padRight 3 (toString index) ++ " " ++ padRight 40 (f.name ++ "()") ++
    " ip=" ++ address f.instruction ++ " sp=" ++ address f.stack ++ " off=" ++ address f.offset

def beginLine : String := "===============> begin stack trace <=================="

def endLine : String := "===============> end stack trace <=================="

def enclose (lines : List String) : List String := beginLine :: lines ++ [endLine]

def render (frames : List Frame) : List String :=
  enclose (frames.mapIdx Frame.line)

structure Latch where
  taken : Bool

namespace Latch

def free : Latch := ⟨false⟩

def enter? (latch : Latch) : Option Latch := if latch.taken then none else some ⟨true⟩

def leave (_ : Latch) : Latch := free

end Latch

end StructuredLog.Stack
