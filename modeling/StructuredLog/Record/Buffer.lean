import StructuredLog.Json.Number
import StructuredLog.Json.Escape
import StructuredLog.Record.Real
import StructuredLog.Error

/-!
Records as they are built: the members of one flat object, put together as text one after another.
-/

namespace StructuredLog.Record

structure Buffer where
  text : List Char
  items : Nat
  indented : Bool

namespace Buffer

def blank : Buffer := ⟨[], 0, false⟩

def fresh (indented : Bool) : Buffer := ⟨if indented then ['{', '\n'] else ['{'], 0, indented⟩

def reset (_ : Buffer) (indented : Bool) : Buffer := fresh indented

def separator (indented : Bool) : List Char := if indented then [',', '\n'] else [',', ' ']

def indent (indented : Bool) : List Char := if indented then [' ', ' ', ' ', ' '] else []

def append (b : Buffer) (key : String) (value : List Char) : Buffer where
  text := b.text ++ (if b.items = 0 then [] else separator b.indented) ++ indent b.indented ++
    Json.stringText key ++ [':', ' '] ++ value
  items := b.items + 1
  indented := b.indented

def appendString (b : Buffer) (key value : String) : Buffer := b.append key (Json.stringText value)

def appendNull (b : Buffer) (key : String) : Buffer := b.append key ['n', 'u', 'l', 'l']

def appendInteger (b : Buffer) (key : String) (value : Int) : Buffer :=
  b.append key (Json.intText value)

def appendReal (b : Buffer) (key : String) (value : Binary64) : Buffer :=
  b.append key (realText value)

/-- Closes the object. The buffer may be closed again, or begun anew. -/
def finish (b : Buffer) : Buffer :=
  { b with text := b.text ++ if b.indented then ['\n', '}'] else [' ', '}'] }

end Buffer

/-- Buffers under handles that count from one. -/
structure Pool where
  slots : List Buffer
  capacity : Nat

namespace Pool

def usualCapacity : Nat := 20

def withCapacity (capacity : Nat) : Pool := ⟨[], capacity⟩

def size (pool : Pool) : Nat := pool.slots.length

def acquire (pool : Pool) : Except Error Nat × Pool :=
  if pool.size < pool.capacity then
    (.ok (pool.size + 1), { pool with slots := pool.slots ++ [Buffer.fresh false] })
  else (.error (.poolExhausted pool.capacity), pool)

def buffer (pool : Pool) (handle : Nat) : Except Error Buffer :=
  match handle with
  | 0 => .error (.invalidHandle 0)
  | index + 1 => match pool.slots[index]? with
    | some b => .ok b
    | none => .error (.invalidHandle handle)

def store (pool : Pool) (handle : Nat) (b : Buffer) : Pool :=
  { pool with slots := pool.slots.set (handle - 1) b }

def update (pool : Pool) (handle : Nat) (change : Buffer → Buffer) : Except Error Unit × Pool :=
  match pool.buffer handle with
  | .ok b => (.ok (), pool.store handle (change b))
  | .error error => (.error error, pool)

end Pool

end StructuredLog.Record
