import Cutscene.Geometry
import Cutscene.Numeric.Decimal

/-!
# Entities

What a world keeps of an entity, and what cues do to it. Every cue that shows is logged with a
label.
-/

namespace Cutscene

/-- An entity of the scene. -/
structure Entity where
  position : Point
  cycleGroup : Option String
  animation : Option String
  animating : Bool
  /-- Whether the animation was started to be repeated. -/
  looped : Bool
  direction : Option Direction
  speaking : Bool
deriving DecidableEq, Inhabited

namespace Entity

/-- An entity that stands at a position. -/
def standing (p : Point) : Entity := ⟨p, none, none, false, false, none, false⟩

/-- Where a move leads. -/
def destination (e : Entity) (x y : Numeric.Single) (set : Bool) : Point :=
  if set then ⟨x, y⟩ else ⟨e.position.x + x, e.position.y + y⟩

/-- The entity after a cue. -/
def follow (e : Entity) : Cue → Entity
  | .speaker _ => e
  | .move x y set => { e with position := e.destination x y set }
  | .setCycleGroup group => { e with cycleGroup := some group }
  | .setAnimation name => { e with animation := some name }
  | .animationStart looped => { e with animating := true, looped }
  | .animationStop => { e with animating := false }
  | .setDirection direction => { e with direction := some direction }
  | .speech active => { e with speaking := active }

/-- What is logged of a cue. -/
def cueLabel? (e : Entity) : Cue → Option String
  | .speaker _ => none
  | .move x y set =>
    let p := e.destination x y set
    some s!"move {p.x.text},{p.y.text}"
  | .setCycleGroup group => some s!"cycle_group {group}"
  | .setAnimation name => some s!"animation {name}"
  | .animationStart _ => some "animation.start"
  | .animationStop => some "animation.stop"
  | .setDirection direction => some s!"direction {direction.label}"
  | .speech _ => none

end Entity

end Cutscene
