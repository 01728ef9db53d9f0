import Std.Data.ExtTreeSet
import Cutscene.Event.Library
import Cutscene.Flags
import Cutscene.Stage

/-!
# Rehearsals

A stage without a picture that writes down everything that is asked of it. Flags, presses, the
dialog box, the overlay and entities behave as on any stage; a change of scene takes the new
scene's events and entities from a list. A quiet rehearsal leaves out what only shows something.
-/

namespace Cutscene

/-- What can be asked of a stage. -/
inductive StageCall where
  | setFlag (name : String)
  | unsetFlag (name : String)
  | consume (c : Control)
  | openBox
  | closeBox
  | setText (text : String)
  | appendText (text : String)
  | showCursor (visible : Bool)
  | showOptions (first second : String) (highlighted : Bool)
  | hideOptions
  | showExpression (expression : Option String)
  | dialogClick
  | playMusic (path : String) (looped : Bool)
  | stopMusic
  | pauseMusic
  | resumeMusic
  | entityCue (entity : String) (cue : Cue)
  | loadScene (path : String) (door : Option String)
  | setTile (layer : Nat) (place : Int × Int) (atlas : String) (rotation : Int)
  | setOverlay (c : Colour)
  | lockMovement (locked : Bool)
deriving DecidableEq

/-- What a scene brings along. -/
structure SceneSketch where
  events : List (String × List Operation)
  entities : List String

/-- The state of a rehearsal. -/
structure Rehearsal where
  /-- All that was asked for, the oldest first. -/
  calls : Array StageCall
  journal : Journal
  flags : Flags
  pressed : Presses
  boxOpen : Bool
  text : String
  overlay : Colour
  locked : Bool
  library : Library
  entities : Std.ExtTreeSet String
  /-- The scenes that can be loaded. -/
  scenes : List (String × SceneSketch)
  /-- The number for the next event that is made. -/
  fresh : Nat

namespace Rehearsal

/-- Writes a call down. -/
def record (c : StageCall) (r : Rehearsal) : Rehearsal := { r with calls := r.calls.push c }

/-- Takes the events of a scene. -/
def takeScene (sketch : SceneSketch) (r : Rehearsal) : Rehearsal :=
  { r with
    library := .ofList r.fresh sketch.events
    fresh := r.fresh + sketch.events.length
    entities := .ofList sketch.entities }

/-- A change of scene. A path without a scene changes nothing. -/
def loadScene (path : String) (door : Option String) (r : Rehearsal) : Option Event × Rehearsal :=
  let r := r.record (.loadScene path door)
  match r.scenes.find? (·.1 == path) with
  | some (_, sketch) =>
    let r := r.takeScene sketch
    (r.library.start?, r)
  | none => (none, r)

/-- Takes a press. -/
def consume (c : Control) (r : Rehearsal) : Bool × Rehearsal :=
  if r.pressed.has c then (true, record (.consume c) { r with pressed := r.pressed.take c })
  else (false, r)

/-- A rehearsal as a quiet stage. -/
def quietStage : Stage Rehearsal where
  note l r := { r with journal := r.journal.push l }
  hasFlag name r := r.flags.has name
  setFlag name r := record (.setFlag name) { r with flags := r.flags.set name }
  unsetFlag name r := record (.unsetFlag name) { r with flags := r.flags.unset name }
  findEvent name r := r.library.find? name
  consume := consume
  isBoxOpen r := r.boxOpen
  openBox r := record .openBox { r with boxOpen := true }
  closeBox r := record .closeBox { r with boxOpen := false }
  setText text r := record (.setText text) { r with text := text }
  appendText text r := record (.appendText text) { r with text := r.text ++ text }
  hasEntity name r := r.entities.contains name
  loadScene := loadScene
  overlay r := r.overlay
  setOverlay c r := record (.setOverlay c) { r with overlay := c }
  lockMovement locked r := record (.lockMovement locked) { r with locked := locked }

/-- A rehearsal as a stage. -/
def stage : Stage Rehearsal :=
  { quietStage with
    showCursor := fun visible => record (.showCursor visible)
    showOptions := fun first second highlighted =>
      record (.showOptions first second highlighted)
    hideOptions := record .hideOptions
    showExpression := fun expression => record (.showExpression expression)
    dialogClick := record .dialogClick
    playMusic := fun path looped => record (.playMusic path looped)
    stopMusic := record .stopMusic
    pauseMusic := record .pauseMusic
    resumeMusic := record .resumeMusic
    entityCue := fun entity cue => record (.entityCue entity cue)
    setTile := fun layer place atlas rotation => record (.setTile layer place atlas rotation) }

end Rehearsal

end Cutscene
