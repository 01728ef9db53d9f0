import Cutscene.Arena
import Cutscene.Event
import Cutscene.Geometry

/-!
# Triggers

A trigger runs an event when the player walks into its area or presses activate there. It may ask
for one flag, and it may be bound to another that it sets when it fires and that keeps it from
firing again.
-/

namespace Cutscene

/-- What makes a trigger fire. -/
inductive TriggerKind where
  /-- The player walks into the area. -/
  | touch
  /-- The player presses activate in the area. -/
  | button
deriving DecidableEq, Repr

/-- What a trigger runs: an event of the library, or one of its own. -/
inductive TriggerAction (ε : Type) where
  | named (name : String)
  | inlined (event : ε)
deriving DecidableEq

/-- A trigger whose own event is an `ε`. -/
structure Trigger (ε : Type) where
  kind : TriggerKind
  area : Area
  /-- The trigger does nothing unless this flag is set. -/
  ifFlag : Option String
  /-- Set when the trigger fires; with it set the trigger does nothing. -/
  bindFlag : Option String
  action : TriggerAction ε
deriving DecidableEq

namespace Trigger

/-- A trigger with its own event made another way. -/
def map {ε δ : Type} (f : ε → δ) (t : Trigger ε) : Trigger δ :=
  { kind := t.kind, area := t.area, ifFlag := t.ifFlag, bindFlag := t.bindFlag
    action := match t.action with
      | .named name => .named name
      | .inlined e => .inlined (f e) }

end Trigger

/-- The triggers of a kind at a position, in the order of their slots. -/
def Arena.hits {ε : Type} (a : Arena (Trigger ε)) (kind : TriggerKind) (p : Point) :
    List (Handle × Trigger ε) :=
  a.toList.filter fun (_, t) => t.kind = kind && t.area.contains p

end Cutscene
