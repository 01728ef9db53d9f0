import Cutscene.Event
import Cutscene.Control
import Cutscene.Colour
import Cutscene.Journal

/-!
# Stages

A stage is everything that operations act on: flags, the player's input, the dialog box, entities,
music, tiles and the overlay. `Stage σ` says how a state of type `σ` serves as one. What only shows
something has a default that does nothing, so that a stage need only give what it keeps.
-/

namespace Cutscene

/-- How states of type `σ` serve as a stage. -/
structure Stage (σ : Type) where
  /-- Appends a line to the journal. -/
  note : Line → σ → σ
  hasFlag : String → σ → Bool
  setFlag : String → σ → σ
  unsetFlag : String → σ → σ
  findEvent : String → σ → Option Event
  /-- Whether a control is pressed; a press is taken by asking for it. -/
  consume : Control → σ → Bool × σ
  isBoxOpen : σ → Bool
  openBox : σ → σ
  closeBox : σ → σ
  setText : String → σ → σ
  appendText : String → σ → σ
  hasEntity : String → σ → Bool
  /-- Changes the scene by path and door; gives the start event of the new scene. -/
  loadScene : String → Option String → σ → Option Event × σ
  overlay : σ → Colour
  setOverlay : Colour → σ → σ
  lockMovement : Bool → σ → σ
  showCursor : Bool → σ → σ := fun _ s => s
  /-- Shows two options, the second one highlighted or not. -/
  showOptions : String → String → Bool → σ → σ := fun _ _ _ s => s
  hideOptions : σ → σ := id
  showExpression : Option String → σ → σ := fun _ s => s
  dialogClick : σ → σ := id
  playMusic : String → Bool → σ → σ := fun _ _ s => s
  stopMusic : σ → σ := id
  pauseMusic : σ → σ := id
  resumeMusic : σ → σ := id
  entityCue : String → Cue → σ → σ := fun _ _ s => s
  /-- Puts a tile at a place of a layer. -/
  setTile : Nat → Int × Int → String → Int → σ → σ := fun _ _ _ _ s => s

/-- Appends a line of a level. -/
def Stage.say {σ : Type} (stage : Stage σ) (level : Level) (text : String) (s : σ) : σ :=
  stage.note ⟨level, text⟩ s

end Cutscene
