import StructuredLog.Handler
import StructuredLog.Host
import StructuredLog.Record.Field
import StructuredLog.Stack

/-!
Walks through the instances of an engine, in the order in which they were added. A walk visits one
instance after another and may stop after any of them.
-/

namespace StructuredLog.Engine

open Record (Buffer Pool Fields)
open Text (Bytes)

structure Visit (C S W : Type) where
  carried : C
  visited : Instance S W
  events : List (Event S)
  stops : Bool

structure Walked (C S W : Type) where
  carried : C
  instances : Table (Instance S W)
  events : List (Event S)

variable {C S W : Type}

def Visit.skip (carried : C) (i : Instance S W) : Visit C S W := ⟨carried, i, [], false⟩

def walk (visit : C → Instance S W → Visit C S W) : C → Table (Instance S W) → Walked C S W
  | carried, [] => ⟨carried, [], []⟩
  | carried, (name, i) :: rest =>
      let v := visit carried i
      if v.stops then ⟨v.carried, (name, v.visited) :: rest, v.events⟩
      else
        let w := walk visit v.carried rest
        ⟨w.carried, (name, v.visited) :: w.instances, v.events ++ w.events⟩

structure Message where
  severity : Severity
  options : Options
  fields : Fields

/-- How records are composed: the time, who writes, and the layout. -/
structure Setting where
  time : String
  identity : Identity
  indented : Bool

/-- Composes the record of a message for an instance with the given options. Nothing of what was in
the buffer is kept. -/
def compose (setting : Setting) (m : Message) (options : Options) (b : Buffer) : Buffer :=
  let b := b.reset setting.indented
  let b := if options.contains .noTime then b else b.appendString "timestamp" setting.time
  let b := m.fields.appendTo b
  let b := if m.severity.atLeast .critical || !options.contains .noDiscover then
      setting.identity.appendTo b else b
  b.finish

/-- The calls on the stack are shown when the call asks for them or ends the process, and to an
instance that wants them for errors and what is more severe. -/
def Message.wantsStack (m : Message) (options : Options) : Bool :=
  m.options.contains .traceStack || m.options.wantsTermination ||
    (options.contains .traceStack && m.severity.atLeast .error)

def fill? (pool : Pool) (slot : Option Nat) (change : Buffer → Buffer) : Option (Bytes × Pool) :=
  match slot with
  | none => none
  | some h => match pool.buffer h with
    | .ok b =>
        let filled := change b
        some (Text.encode filled.text, pool.store h filled)
    | .error _ => none

variable [Handler S]

def offer (setting : Nat → Setting) (slot : Option Nat) (m : Message) (pool : Pool)
    (i : Instance S W) : Visit Pool S W :=
  match if i.type.writes then fill? pool slot (compose (setting i.handle.id) m i.options)
    else none with
  | none => .skip pool i
  | some (data, pool) =>
      let (answer, visited) := i.write m.severity data
      ⟨pool, visited, [.wrote i.handle m.severity data], decide (answer < 0)⟩

def trace (lines : List String) (m : Message) (v : Visit Pool S W) : Visit Pool S W :=
  if v.visited.type.formats && m.wantsStack v.visited.options then
    let (visited, events) := v.visited.format m.severity lines
    { v with visited, events := v.events ++ events }
  else v

/-- The visit of a message: its record, and unless that is taken the stack trace. The setting of a
record is that of the handle which gets it. -/
def deliver (setting : Nat → Setting) (slot : Option Nat) (lines : List String) (m : Message)
    (pool : Pool) (i : Instance S W) : Visit Pool S W :=
  if i.options.ignores m.severity then .skip pool i
  else
    let v := offer setting slot m pool i
    if v.stops then v else trace lines m v

def deliverRaw (s : Severity) (data : Bytes) (_ : Unit) (i : Instance S W) : Visit Unit S W :=
  if i.options.ignores s || !i.type.writes then .skip () i
  else
    let (answer, visited) := i.write s data
    ⟨(), visited, [.wrote i.handle s data], decide (answer < 0)⟩

/-- The visit of lines; no answer stops it. -/
def deliverLines (s : Severity) (lines : List String) (_ : Unit) (i : Instance S W) :
    Visit Unit S W :=
  if i.options.ignores s || !i.type.formats then .skip () i
  else
    let (visited, events) := i.format s lines
    ⟨(), visited, events, false⟩

end StructuredLog.Engine
