import Cutscene.Chronicle
import Cutscene.Json.Value
import Cutscene.Thread.Machine

/-!
# Interpreters of scene scripts

What a session needs of an interpreter of scripts: it reads and loads scripts, and runs their
threads as a machine. In which language scripts are written and how they are run is left to it. A
session is played with the interpreter at hand, and what is said of sessions holds with any.

Scripts act on the chronicle and on a list of events to be called, which are not theirs; both are
handed in and given back (`Reach`). So is the clock that deadlines are on: scripts run with its
readings, one after the other, of which nothing is known in advance.
-/

namespace Cutscene

/-- What scripts act on. -/
structure Reach where
  chronicle : Chronicle
  /-- The events that scripts want to be called, the oldest first. -/
  calls : Array String

/-- Appends a line to the journal. -/
def Reach.note (line : Line) (r : Reach) : Reach := { r with chronicle := r.chronicle.note line }

/-- An interpreter of the scripts of scenes. It is inferred, so that it need not be named wherever a
session is. -/
class Interpreter where
  /-- A script that has been read. -/
  Chunk : Type
  /-- What scripts keep among themselves. -/
  Memory : Type
  /-- The state that scripts run in. -/
  State : Type
  /-- What a thread starts with. -/
  Function : Type
  /-- What a thread is given. -/
  Argument : Type
  /-- A thread of a script. -/
  Context : Type
  machine : Machine State Function Argument Context
  /-- The script with a text, if it is one. -/
  read? : String → Option Chunk
  /-- The state in which a script is loaded that is to act on something. -/
  fresh : Reach → State
  /-- Loads a script, if there is one. Tells whether there was no error; what was done before an
  error stays done. -/
  load : Option Chunk → State → Bool × State
  /-- The state when threads are about to be created, after a script was loaded. -/
  opening : State → State
  /-- The function that scripts have under a name. -/
  function? : String → State → Option Function
  memory : State → Memory
  reach : State → Reach
  /-- The state of scripts that have kept something and act on something, at the first of some
  readings of the clock. -/
  restore : Memory → Reach → (Nat → Nat) → State
  /-- Where a thread is in its life. -/
  stateOf : Context → ContextState
  /-- What the function of a thread has returned, as far as it has a JSON form. -/
  results : Context → List Json

end Cutscene
