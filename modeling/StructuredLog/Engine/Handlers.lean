import StructuredLog.Engine.Basic

/-!
Handler types and instances of an engine, and its start and end. An operation that is refused
changes nothing but the count of errors and the last message: the refusal itself is logged as an
error.
-/

namespace StructuredLog.Engine

variable {S W : Type}

def refusalFields (error : Error) : Record.Fields :=
  [("msgset", .str "Internal Error"), ("msg", .str error.message), ("code", .str error.code)]

/-- Refuses an operation after `before` has happened. -/
def refuse [Handler S] (host : Host) (e : Engine S W) (error : Error) (before : List (Event S)) :
    Outcome S W (Except Error Unit) :=
  let (e, events) := Engine.error host e .none (refusalFields error)
  ⟨.error error, e, before ++ events⟩

def noRoom? (maxTypes : Nat) (types : Table (HandlerType S W)) :
    Nat → List (HandlerType S W) → Option Error
  | _, [] => none
  | taken, t :: rest =>
      if Table.has t.name types then some (.typeExists t.name)
      else if maxTypes ≤ taken then some (.typeTableFull maxTypes t.name)
      else noRoom? maxTypes types (taken + 1) rest

def refusal? (e : Engine S W) (incoming : List (HandlerType S W)) : Option Error :=
  noRoom? e.maxTypes e.types e.types.length incoming

def enroll (types : Table (HandlerType S W)) (incoming : List (HandlerType S W)) :
    Table (HandlerType S W) :=
  incoming.foldl (fun types t => Table.put t.name t types) types

/-- The pool with a buffer for records, which is handed out at the first start. -/
def withSlot (e : Engine S W) : Except Error Nat × Record.Pool :=
  match e.slot with
  | some h => (.ok h, e.pool)
  | none => e.pool.acquire

def startup [Handler S] (host : Host) (e : Engine S W) (app : AppInfo) :
    Outcome S W (Except Error Unit) :=
  match e.app with
  | some started => e.refuse host (.alreadyStarted started.name) []
  | none => match e.refusal? e.builtins with
    | some error => e.refuse host error []
    | none => match e.withSlot with
      | (.error error, pool) => ⟨.error error, { e with pool }, []⟩
      | (.ok h, pool) =>
          let started := { e with
            slot := some h
            pool
            types := enroll e.types e.builtins
            app := some app
            identity := .ofExecutable host app.executable }
          ⟨.ok (), started, []⟩

def register [Handler S] (host : Host) (e : Engine S W) (t : HandlerType S W) :
    Outcome S W (Except Error Unit) :=
  match e.refusal? [t] with
  | some error => e.refuse host error []
  | none => ⟨.ok (), { e with types := enroll e.types [t] }, []⟩

/-- Options that name no severity mean all of them. -/
def completed (options : Options) : Options :=
  if options.intersects .allSeverities then options else options.union .allSeverities

def typeFor (e : Engine S W) (name type : String) : Except Error (HandlerType S W) :=
  if !e.isStarted then .error .notStarted
  else if Table.has name e.instances then .error (.instanceExists name)
  else match Table.get? type e.types with
    | some t => .ok t
    | none => .error (.unknownType type)

/-- Adds an instance at the end. A handle that is refused is closed. -/
def add [Handler S] (host : Host) (e : Engine S W) (name type : String) (options : Options)
    (handle : Handle S) : Outcome S W (Except Error Unit) :=
  match e.typeFor name type with
  | .error error => e.refuse host error [.closed handle]
  | .ok t =>
      let i : Instance S W := ⟨name, completed options, t, handle⟩
      ⟨.ok (), { e with instances := Table.put name i e.instances }, []⟩

/-- Opens a handle by the factory of a type and adds it. A type without a factory and a factory that
fails are not logged. -/
def openHandler [Handler S] (host : Host) (e : Engine S W) (surroundings : W) (name type : String)
    (options : Options) (params : Json.Value) : Outcome S W (Except Error Unit) × W :=
  match Table.get? type e.types with
  | none => (e.refuse host (.unknownType type) [], surroundings)
  | some t => match t.factory with
    | none => (⟨.error (.notOpenable type), e, []⟩, surroundings)
    | some make => match make params surroundings with
      | (.error error, surroundings) => (⟨.error error, e, []⟩, surroundings)
      | (.ok handle, surroundings) => (e.add host name type options handle, surroundings)

/-- Instances leave the list together, and then they are closed one after another. -/
def removals (removed : Table (Instance S W)) : List (Event S) :=
  removed.map (fun entry => .unlisted entry.2.handle) ++
    removed.map fun entry => .closed entry.2.handle

/-- Removes and closes an instance, or all of them under the empty name. The answer is how many. -/
def remove (e : Engine S W) (name : String) : Outcome S W Nat :=
  let (kept, removed) := if name = "" then ([], e.instances) else
    (Table.erase name e.instances, e.instances.filter (·.1 == name))
  ⟨removed.length, { e with instances := kept }, removals removed⟩

/-- Removes all instances and types; the engine may then be started again. -/
def shutdown (e : Engine S W) : Outcome S W Nat :=
  let removed := e.remove ""
  { removed with engine := { removed.engine with types := [], app := none } }

def dropped (e : Engine S W) : List (Event S) := (e.remove "").events

end StructuredLog.Engine
