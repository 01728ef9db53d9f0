import Cutscene.Operation

/-!
# Events

An event is an ordered list of operations with an identity. Two events with the same operations are
still different events: what must not run twice at once is one event, not one text. So every event
carries an `Event.Id`, given to it when it is made.

An inline list of operations is an event of its own. It has no name, and its identity is the place
where it is written: the enclosing event and the position of the operation. So inline events are
never shared: two operations hold two of them, also if they hold the same list, and two events do.
This is how scene files give them, where each inline list is read into an event made for the place
that it stands in; events put together by hand, with one inline event in several places, are left
out.
-/

namespace Cutscene

/-- The identity of an event: the number it was given when it was made and, for an inline event, the
positions of the operations that lead to it, the innermost first. -/
structure Event.Id where
  origin : Nat
  path : List Nat
deriving DecidableEq, Repr, Inhabited

/-- An event. -/
structure Event where
  id : Event.Id
  name : Option String
  operations : List Operation
deriving Inhabited

namespace Event

/-- The event that a scene runs when it is loaded. -/
def startName : String := "_start_"

/-- A new event. -/
def make (origin : Nat) (name : Option String) (operations : List Operation) : Event :=
  ⟨⟨origin, []⟩, name, operations⟩

/-- The event that the operation at a position holds inline. -/
def inlined (e : Event) (position : Nat) (operations : List Operation) : Event :=
  ⟨⟨e.id.origin, position :: e.id.path⟩, none, operations⟩

/-- What an event is called in diagnostics. -/
def displayName (e : Event) : String :=
  match e.name with
  | some name => if name = "" then "<inline>" else name
  | none => "<inline>"

/-- How many operations an event has. -/
def size (e : Event) : Nat := e.operations.length

end Event

end Cutscene
