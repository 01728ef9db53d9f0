import Cutscene.Journal
import Cutscene.Thread.Watchdog

/-!
# Script machines

What the scheduler needs of an interpreter of scripts. A machine prepares a context for a function,
resumes a context until it yields, ends or fails, and takes contexts back. Scripts never reach the
scheduler: a thread that a script asks for while it is resumed is put on a list, which the scheduler
collects after the resume.
-/

namespace Cutscene

/-- Where a context is in its life. -/
inductive ContextState where
  /-- Prepared and never resumed. -/
  | ready
  /-- Inside a resume. -/
  | running
  /-- Waiting for the next resume. -/
  | suspended
  | finished
  /-- Ended by an error, by its own wish or by the watchdog. -/
  | aborted
deriving DecidableEq, Repr, Inhabited

namespace ContextState

/-- Whether a context in this state can be resumed. -/
def isResumable : ContextState → Bool
  | ready => true
  | suspended => true
  | _ => false

/-- The name of a state. -/
def label : ContextState → String
  | ready => "ready"
  | running => "running"
  | suspended => "suspended"
  | finished => "finished"
  | aborted => "aborted"

end ContextState

/-- Why no context could be prepared. -/
inductive PrepareError where
  /-- What was given is not a function. -/
  | invalidFunction (what : String)
  /-- There is no room for a context. -/
  | noContext (reason : String)
deriving DecidableEq, Repr

/-- The wording of an error. -/
def PrepareError.message : PrepareError → String
  | invalidFunction what => s!"invalid script function: {what}"
  | noContext reason => s!"cannot allocate script context: {reason}"

/-- A thread that a script asks for. -/
structure SpawnRequest (φ α : Type) where
  function : φ
  args : Option α

/-- An interpreter of scripts with states `σ`, functions `φ`, arguments `α` and contexts `κ`. -/
structure Machine (σ φ α κ : Type) where
  /-- The clock that deadlines are on. -/
  now : σ → Nat
  /-- Appends a line to the journal. -/
  note : Line → σ → σ
  /-- Binds a function and its argument to a new context. Nothing runs. -/
  prepare : φ → Option α → σ → Except PrepareError κ × σ
  /-- Runs a context until it yields, ends or fails, or the deadline has come. -/
  resume : κ → Deadline → σ → ContextState × κ × σ
  /-- Ends a context. -/
  abort : κ → σ → κ × σ
  /-- Takes a context back that is never resumed again. -/
  recycle : κ → σ → σ
  /-- The threads asked for since the last time, in order. -/
  takeSpawned : σ → List (SpawnRequest φ α) × σ
  collectStep : σ → σ
  collectFull : σ → σ
  /-- What a context is called. -/
  label : κ → String

end Cutscene
