import Cutscene.Event

/-!
# Frames

A frame is one activation of an event: how far it has come, and what its present operation keeps
from tick to tick. Times are in nanoseconds.
-/

namespace Cutscene

/-- What an operation keeps while it is suspended. -/
inductive Progress where
  /-- Nothing. -/
  | fresh
  /-- The bytes and the characters of a text that are shown, and when the last of them were. -/
  | say (offset revealed : Nat) (lastReveal : Option Nat)
  /-- When the waiting began. -/
  | wait (started : Nat)
  /-- Whether the second option is highlighted. -/
  | selection (second : Bool)
  /-- When the fading began. -/
  | fade (started : Nat)
deriving DecidableEq, Repr, Inhabited

/-- An activation of an event. -/
structure Frame where
  event : Event
  /-- The position of the present operation. -/
  cursor : Nat
  /-- Whether the present operation has yet to run for the first time. -/
  justEntered : Bool
  /-- Whether an event that the present operation called is above this frame. -/
  awaitingChild : Bool
  progress : Progress
deriving Inhabited

namespace Frame

/-- A frame at the beginning of an event. -/
def start (e : Event) : Frame := ⟨e, 0, true, false, .fresh⟩

/-- The present operation, if the event is not at its end. -/
def operation? (f : Frame) : Option Operation := f.event.operations[f.cursor]?

/-- Whether the event is at its end. -/
def isFinished (f : Frame) : Bool := f.event.size ≤ f.cursor

/-- The frame at the beginning of the next operation. -/
def advance (f : Frame) : Frame := ⟨f.event, f.cursor + 1, true, false, .fresh⟩

/-- The frame whose operation goes on in a later tick. -/
def suspend (f : Frame) (p : Progress) : Frame := { f with justEntered := false, progress := p }

/-- The frame whose operation has called an event. -/
def await (f : Frame) : Frame := { f with awaitingChild := true, progress := .fresh }

end Frame

end Cutscene
