import Cutscene.Script.Machine
import Cutscene.Session.Interpreter

/-!
# The interpreter of scripts

Scripts as sessions run them. They find the standard functions, and their deadlines are on the clock
of the system.
-/

namespace Cutscene

/-- What scripts have acted on. -/
def Reach.ofState (s : Script.State) : Reach := ⟨s.chronicle, s.calls⟩

/-- The state of scripts that act on it. -/
def Reach.withMemory (r : Reach) (memory : Script.Memory)
    (timeSource : Script.TimeSource := .still) : Script.State :=
  ⟨memory, r.chronicle, r.calls, 0, timeSource⟩

namespace Script

/-- A global that is a function, for a thread to start with. -/
def entry? (name : String) (s : State) : Option Entry :=
  if (s.global name).isFunction then some (.global name) else none

/-- Scripts of this language. -/
instance interpreter : Interpreter where
  Chunk := Chunk
  Memory := Memory
  State := State
  Function := Entry
  Argument := Argument
  Context := Context
  machine := machine
  read? := Chunk.ofText?
  fresh r := r.withMemory (.initial Builtin.standard)
  load := load
  opening := State.opening
  function? := entry?
  memory := State.memory
  reach := Reach.ofState
  restore memory r readings := r.withMemory memory (.system readings 0)
  stateOf := Context.state
  results := Context.results

end Script

end Cutscene
