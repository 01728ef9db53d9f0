import Cutscene.Chronicle
import Cutscene.Script.Value
import Cutscene.Thread.Machine
import Cutscene.Thread.Registry

/-!
# The state that scripts run in

`Memory` is what the scripts of one scene keep among themselves: globals, shared values, and the
threads that they have asked for. `State` adds what they act on: the chronicle, the list of events
that they want to be called, and the clock that their deadlines are on.

That clock is put forward by hand, or it is the clock of the system (`TimeSource`). Of the latter
nothing is known but its readings, of which every step of a script takes one.
-/

namespace Cutscene.Script

open Numeric

/-- What a thread starts with. -/
inductive Entry where
  /-- The function that a global has when the thread is created. -/
  | global (name : String)
  | value (v : Value)

/-- What a thread is given. -/
inductive Argument where
  | json (j : Json)
  | value (v : Value)

/-- A thread that a script asks for. -/
abbrev Request := SpawnRequest Entry Argument

/-- What scripts keep among themselves. -/
structure Memory where
  globals : Std.ExtTreeMap String Value
  registry : Registry Value
  /-- The threads asked for and not yet created, the oldest first. -/
  spawned : Array Request
  /-- The label of the thread that is being resumed. -/
  executing : Option String
  /-- Whether the thread that is being resumed has called `abort`. -/
  abortRequested : Bool
  /-- Whether the deadline of the resume was found to have come. -/
  timedOut : Bool
  /-- The number in the label of the next thread that a script creates. -/
  nextLabel : Nat
  /-- The next identity of a table or a function. -/
  nextId : Nat

/-- The memory of scripts that find some functions. -/
def Memory.initial (builtins : List Builtin) : Memory where
  globals := .ofList (builtins.map fun b => (b.name, Value.builtin b))
  registry := .empty
  spawned := #[]
  executing := none
  abortRequested := false
  timedOut := false
  nextLabel := 1
  nextId := 0

instance : Inhabited Memory := ⟨.initial []⟩

/-- Where the time comes from that deadlines are compared with. -/
inductive TimeSource where
  /-- The clock of the state, which is put forward by hand. -/
  | byHand
  /-- The clock of the system: its readings, and how many of them are past. -/
  | system (readings : Nat → Nat) (past : Nat)

namespace TimeSource

/-- A clock of the system that stands still. -/
def still : TimeSource := .system (fun _ => 0) 0

/-- Whether the clock of the system is used, which stands still then. -/
instance : Coe Bool TimeSource where
  coe system := if system then still else byHand

/-- The next reading. -/
def pass : TimeSource → TimeSource
  | byHand => byHand
  | system readings past => system readings (past + 1)

end TimeSource

/-- The state that scripts run in. -/
structure State where
  memory : Memory
  chronicle : Chronicle
  /-- The events that scripts want to be called, the oldest first. -/
  calls : Array String
  clock : Nat
  timeSource : TimeSource

namespace State

/-- The time that deadlines are compared with. -/
def time (s : State) : Nat :=
  match s.timeSource with
  | .byHand => s.clock
  | .system readings past => readings past

/-- The state a little later. -/
def pass (s : State) : State := { s with timeSource := s.timeSource.pass }

/-- Appends a line to the journal. -/
def note (line : Line) (s : State) : State := { s with chronicle := s.chronicle.note line }

/-- The value of a global. -/
def global (s : State) (name : String) : Value := (s.memory.globals[name]?).getD .nil

/-- Assigns a global. -/
def assign (name : String) (v : Value) (s : State) : State :=
  { s with memory := { s.memory with globals := s.memory.globals.insert name v } }

/-- Puts a value under a name that scripts share. -/
def publish (name : String) (v : Value) (s : State) : State :=
  let (registry, lines) := s.memory.registry.publish name v
  { s with memory := { s.memory with registry }, chronicle := s.chronicle.noteAll lines }

/-- Asks for a thread. -/
def spawn (r : Request) (s : State) : State :=
  { s with memory := { s.memory with spawned := s.memory.spawned.push r } }

/-- An identity that no other table or function has. -/
def freshId (s : State) : Nat × State :=
  (s.memory.nextId, { s with memory := { s.memory with nextId := s.memory.nextId + 1 } })

/-- The label that prints are marked with. -/
def printLabel (s : State) : String := s.memory.executing.getD "main"

end State

/-! ## Functions that scripts find -/

/-- How a call of a function ends. -/
inductive Reply where
  | results (vs : List Value)
  /-- With an error. -/
  | failure
  /-- By giving way. -/
  | pause

namespace Builtin

/-- A function of a text. -/
def withText (args : List Value) (s : State) (f : String → State → List Value × State) :
    Reply × State :=
  match (args.headD .nil).string? with
  | none => (.failure, s)
  | some text =>
    let (vs, s) := f text s
    (.results vs, s)

/-- Asks for a thread, with a table or nothing as its argument. -/
def askThread (function argument : Value) (s : State) : Reply × State :=
  let ask (args : Option Argument) : Reply × State :=
    if function.isFunction then (.results [.boolean true], s.spawn ⟨.value function, args⟩)
    else
      (.results [.boolean false],
        s.note ⟨.error, s!"create_thread: Invalid function ({function.typeName})"⟩)
  match argument with
  | .nil => ask none
  | .list id fromJson items => ask (some (.value (.list id fromJson items)))
  | .record id members => ask (some (.value (.record id members)))
  | _ => (.failure, s)

/-- Changes a flag. -/
def changeFlag (change : String → Chronicle → Bool × Chronicle) (name : String) (s : State) :
    List Value × State :=
  let (changed, chronicle) := change name s.chronicle
  ([.boolean changed], { s with chronicle })

/-- Prints a text. -/
def print (level : Level) (text : String) (s : State) : List Value × State :=
  let label := s.printLabel
  ([], s.note ⟨level, s!"[{label}] {text}"⟩)

/-- Calls a function. -/
def perform (b : Builtin) (args : List Value) (s : State) : Reply × State :=
  match b with
  | .yield => (.pause, s)
  | .createThread => askThread (args.headD .nil) (args.getD 1 .nil) s
  | .abort => (.failure, { s with memory := { s.memory with abortRequested := true } })
  | .makeShared =>
    withText (args.drop 1) s fun name s => ([], s.publish name (args.headD .nil))
  | .getShared =>
    withText args s fun name s => ([(s.memory.registry.fetch? name).getD .nil], s)
  | .debugPrint => withText args s (print .debug)
  | .errorPrint => withText args s (print .error)
  | .hasFlag => withText args s fun name s => ([.boolean (s.chronicle.flags.has name)], s)
  | .setFlag => withText args s (changeFlag Chronicle.setFlag)
  | .unsetFlag => withText args s (changeFlag Chronicle.unsetFlag)
  | .callEvent => withText args s fun name s => ([], { s with calls := s.calls.push name })
  | .logEvent =>
    match args.mapM Value.string? with
    | some parts =>
      (.results [], { s with chronicle := s.chronicle.record (" ".intercalate parts) })
    | none => (.failure, s)
  | .advance =>
    match (args.headD .nil).double?.bind (·.integerPart 52) with
    | some (ms, _) =>
      if ms < 0 ∨ UInt64.size ≤ ms then (.failure, s)
      else (.results [], { s with clock := s.clock + ms.toNat * 1000000 })
    | none => (.failure, s)

end Builtin

end Cutscene.Script
