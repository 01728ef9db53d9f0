import Std.Data.ExtTreeMap
import Cutscene.Chronicle
import Cutscene.Scene
import Cutscene.Event.Library
import Cutscene.Stage
import Cutscene.World.Entity

/-!
# The world

The state of the scene that is played: its events, entities, triggers and doors, and what outlasts
it: the chronicle, the player, the dialog box, the music, the tiles. A world has no picture; what
would be shown is kept as text.

`World.stage` is the world as a stage. A change of scene needs the scenes that can be loaded, so it
is given a function that loads them.
-/

namespace Cutscene

/-- The dialog box. -/
structure Narrative where
  isOpen : Bool
  text : String
  /-- Whether the mark that asks for a key is visible. -/
  cursor : Bool
  /-- Two options and the number of the highlighted one, from 0. -/
  options : Option (String × String × Nat)
  expression : Option String
deriving DecidableEq

/-- The dialog box closed. -/
def Narrative.closed : Narrative := ⟨false, "", false, none, none⟩

instance : Inhabited Narrative := ⟨Narrative.closed⟩

/-- A place for a tile: a layer, a column and a row. -/
abbrev TilePlace := Nat × Int × Int

/-- The order of places: by layer, then by column, then by row. -/
def TilePlace.order : TilePlace → TilePlace → Ordering :=
  compareLex (compareOn (·.1)) (compareLex (compareOn (·.2.1)) (compareOn (·.2.2)))

instance : Std.TransCmp TilePlace.order := by unfold TilePlace.order; infer_instance

/-- The tiles that have been replaced: the atlas and the rotation at each place. -/
abbrev Tiles := Std.ExtTreeMap TilePlace (String × Int) TilePlace.order

/-- The state of the scene that is played. -/
structure World where
  chronicle : Chronicle
  /-- The name of the scene. -/
  scene : String
  /-- The directory that the paths of the scene are resolved against. -/
  directory : String
  library : Library
  entities : Std.ExtTreeMap String Entity
  triggers : Arena (Trigger Event)
  /-- The trigger that fired last in this scene. -/
  lastTrigger : Option Handle
  doors : List (String × Point)
  player : Point
  /-- The presses that nobody has taken. -/
  input : Presses
  narrative : Narrative
  /-- The pages of dialog that have been shown. -/
  transcript : Array String
  /-- How many clicks of dialog have sounded. -/
  clicks : Nat
  overlay : Colour
  movementLocked : Bool
  music : Option String
  tiles : Tiles
  /-- After a change of scene, the script of the new scene, if it has one. -/
  pendingScript : Option (Option String)
  /-- The number of the next event that is made. -/
  nextOrigin : Nat

namespace World

/-- A world without a scene. -/
def blank : World where
  chronicle := .empty
  scene := ""
  directory := ""
  library := .empty
  entities := ∅
  triggers := .empty
  lastTrigger := none
  doors := []
  player := .origin
  input := .none
  narrative := .closed
  transcript := #[]
  clicks := 0
  overlay := .clear
  movementLocked := false
  music := none
  tiles := ∅
  pendingScript := none
  nextOrigin := 0

instance : Inhabited World := ⟨blank⟩

/-! ## The chronicle -/

/-- Appends a line to the journal. -/
def note (line : Line) (w : World) : World := { w with chronicle := w.chronicle.note line }

/-- The lines of the journal, and the world without them. -/
def takeJournal (w : World) : List Line × World :=
  (w.chronicle.journal.toList, { w with chronicle := { w.chronicle with journal := #[] } })

/-- Logs that something has happened. -/
def record (entry : String) (w : World) : World := { w with chronicle := w.chronicle.record entry }

/-- Whether a flag is set. -/
def hasFlag (name : String) (w : World) : Bool := w.chronicle.flags.has name

/-- Sets a flag; tells whether it was unset. -/
def setFlag (name : String) (w : World) : Bool × World :=
  let (changed, chronicle) := w.chronicle.setFlag name
  (changed, { w with chronicle })

/-- Unsets a flag; tells whether it was set. -/
def unsetFlag (name : String) (w : World) : Bool × World :=
  let (changed, chronicle) := w.chronicle.unsetFlag name
  (changed, { w with chronicle })

/-! ## Input -/

/-- Presses a control. -/
def press (c : Control) (w : World) : World := { w with input := w.input.press c }

/-- Takes a press; tells whether there was one. -/
def consume (c : Control) (w : World) : Bool × World :=
  (w.input.has c, { w with input := w.input.take c })

/-- Forgets the presses that nobody has taken. -/
def clearInput (w : World) : World := { w with input := .none }

/-! ## The dialog box -/

/-- Turns the text that is shown into a page of the transcript. -/
def flushDialog (w : World) : World :=
  if w.narrative.text = "" then w
  else
    let page := w.narrative.text
    record s!"dialog {page}"
      { w with narrative := { w.narrative with text := "" }, transcript := w.transcript.push page }

/-- Opens the box; the player cannot walk while it is open. -/
def openBox (w : World) : World :=
  record "box.open"
    { w with narrative := { w.narrative with isOpen := true }, movementLocked := true }

/-- Closes the box. -/
def closeBox (w : World) : World :=
  record "box.close" { w.flushDialog with narrative := .closed, movementLocked := false }

/-- Shows a text in place of the one that is shown. -/
def setText (text : String) (w : World) : World :=
  let w := w.flushDialog
  { w with narrative := { w.narrative with text } }

/-- Shows more text. -/
def appendText (text : String) (w : World) : World :=
  { w with narrative := { w.narrative with text := w.narrative.text ++ text } }

/-- Shows or hides the mark that asks for a key. -/
def showCursor (visible : Bool) (w : World) : World :=
  { w with narrative := { w.narrative with cursor := visible } }

/-- Shows two options. -/
def showOptions (first second : String) (highlighted : Nat) (w : World) : World :=
  let w := if w.narrative.options.isNone then w.record s!"options {first} | {second}" else w
  { w with narrative := { w.narrative with options := some (first, second, highlighted) } }

/-- Hides the options; the highlighted one has been chosen. -/
def hideOptions (w : World) : World :=
  match w.narrative.options with
  | none => w
  | some (first, second, highlighted) =>
    let chosen := if highlighted = 0 then first else second
    record s!"options.chose {chosen}" { w with narrative := { w.narrative with options := none } }

/-- Shows an expression, or none. -/
def showExpression (expression : Option String) (w : World) : World :=
  { w with narrative := { w.narrative with expression } }

/-- Lets a click of dialog sound. -/
def dialogClick (w : World) : World := { w with clicks := w.clicks + 1 }

/-! ## Music -/

/-- Plays a track. -/
def playMusic (path : String) (looped : Bool) (w : World) : World :=
  record s!"music.set {path} loop={looped}" { w with music := some path }

/-- Stops the track. -/
def stopMusic (w : World) : World := record "music.stop" { w with music := none }

/-! ## Entities and tiles -/

/-- Whether the scene has an entity of a name. -/
def hasEntity (name : String) (w : World) : Bool := w.entities.contains name

/-- Gives a cue to an entity. -/
def entityCue (name : String) (cue : Cue) (w : World) : World :=
  match w.entities[name]? with
  | none => w.note ⟨.error, s!"cue for missing entity '{name}'"⟩
  | some e =>
    let w := { w with entities := w.entities.insert name (e.follow cue) }
    match e.cueLabel? cue with
    | some label => w.record s!"entity.{name} {label}"
    | none => w

/-- The tile at a place, if it has been replaced. -/
def tile? (place : TilePlace) (w : World) : Option (String × Int) := w.tiles[place]?

/-- Puts a tile at a place. -/
def setTile (place : TilePlace) (atlas : String) (rotation : Int) (w : World) : World :=
  { w with tiles := w.tiles.insert place (atlas, rotation) }

/-! ## Triggers -/

/-- Whether the flags let a trigger fire. -/
def admits (w : World) (t : Trigger Event) : Bool :=
  t.ifFlag.all w.hasFlag && !t.bindFlag.any w.hasFlag

/-- The event of a trigger. -/
def eventOf? (w : World) (t : Trigger Event) : Option Event :=
  match t.action with
  | .inlined e => some e
  | .named name => w.library.find? name

/-- Reports that the event of a trigger does not exist. -/
def noteMissing (t : Trigger Event) (w : World) : World :=
  match t.action with
  | .named name => w.note ⟨.error, s!"trigger event '{name}' not found"⟩
  | .inlined _ => w

/-- The first of some triggers that the flags let fire and whose event exists. -/
def choose : List (Handle × Trigger Event) → World → Option (Handle × Trigger Event × Event) × World
  | [], w => (none, w)
  | (h, t) :: rest, w =>
    if w.admits t then
      match w.eventOf? t with
      | some e => (some (h, t, e), w)
      | none => choose rest (w.noteMissing t)
    else choose rest w

/-- Sets the flag that a trigger is bound to and logs it, without a look whether it is set. -/
def bind (t : Trigger Event) (w : World) : World :=
  match t.bindFlag with
  | some flag =>
    let flags := w.chronicle.flags.set flag
    record s!"flag.set {flag}" { w with chronicle := { w.chronicle with flags } }
  | none => w

/-- Fires the first trigger of a kind at a position that can; gives its event. -/
def fireTrigger (kind : TriggerKind) (p : Point) (w : World) : Option Event × World :=
  match choose (w.triggers.hits kind p) w with
  | (none, w) => (none, w)
  | (some (h, t, e), w) => (some e, { w.bind t with lastTrigger := some h })

/-- The trigger that fired last, unless it is gone. -/
def liveLastTrigger (w : World) : Option Handle := w.lastTrigger.filter w.triggers.isLive

/-! ## Scenes -/

/-- The position of a door. -/
def door? (name : String) (w : World) : Option Point :=
  (w.doors.find? (·.1 == name)).map (·.2)

/-- The triggers of a scene, their own events numbered from `origin` on. -/
def ownTriggers (origin : Nat) (ts : List (Trigger (List Operation))) : List (Trigger Event) :=
  ts.zipIdx.map fun (t, i) => t.map (Event.make (origin + i) none)

/-- Puts the player at a door or, failing that, where the scene says. -/
def placePlayer (door : Option String) (start : Option Point) (w : World) : World :=
  let place (p : Option Point) (w : World) : World := { w with player := p.getD w.player }
  match door with
  | none => place start w
  | some name => match w.door? name with
    | some p => place (some p) w
    | none => place start (w.note ⟨.error, s!"door '{name}' not found in scene {w.scene}"⟩)

/-- Replaces the scene. Flags, transcript, tiles, music and the dialog box stay. -/
def enter (scene : Scene) (door : Option String) (w : World) : World :=
  let count := scene.events.length
  let w : World :=
    { w with
      scene := scene.name
      directory := scene.directory
      library := .ofList w.nextOrigin scene.events
      entities := .ofList (scene.entities.map fun (name, p) => (name, Entity.standing p))
      triggers := w.triggers.clear.insertAll (ownTriggers (w.nextOrigin + count) scene.triggers)
      chronicle := { w.chronicle with flags := scene.flags.foldl .set w.chronicle.flags }
      doors := scene.doors
      nextOrigin := w.nextOrigin + count + scene.triggers.length }
  let w := w.placePlayer door scene.player
  note ⟨.info, s!"scene {w.scene} active"⟩ { w with pendingScript := some scene.script }

/-- The world at the beginning of a scene. -/
def ofScene (scene : Scene) : World := { blank.enter scene none with pendingScript := none }

/-- Changes the scene; gives the start event of the new one. A scene that cannot be loaded changes
nothing. -/
def loadScene (load : String → Reported Scene) (path : String) (door : Option String) (w : World) :
    Option Event × World :=
  let (lines, result) := load (Text.Path.join w.directory path)
  let w := { w with chronicle := w.chronicle.noteAll lines }
  match result with
  | .error _ => (none, w.note ⟨.error, "scene load failed"⟩)
  | .ok scene =>
    let entrance := door.getD "-"
    let w := enter scene door
      { w.record s!"scene.load {scene.name} door={entrance}" with lastTrigger := none }
    (w.library.start?, w)

/-- Takes the script that is to be started after a change of scene. -/
def takePendingScript (w : World) : Option (Option String) × World :=
  (w.pendingScript, { w with pendingScript := none })

/-! ## The world as a stage -/

/-- The world as a stage, with a function that loads scenes. -/
def stage (load : String → Reported Scene) : Stage World where
  note := note
  hasFlag := hasFlag
  setFlag name w := (w.setFlag name).2
  unsetFlag name w := (w.unsetFlag name).2
  findEvent name w := w.library.find? name
  consume := consume
  isBoxOpen w := w.narrative.isOpen
  openBox := openBox
  closeBox := closeBox
  setText := setText
  appendText := appendText
  hasEntity := hasEntity
  loadScene := loadScene load
  overlay w := w.overlay
  setOverlay c w := { w with overlay := c }
  lockMovement locked w := { w with movementLocked := locked }
  showCursor := showCursor
  showOptions first second highlighted := showOptions first second (if highlighted then 1 else 0)
  hideOptions := hideOptions
  showExpression := showExpression
  dialogClick := dialogClick
  playMusic := playMusic
  stopMusic := stopMusic
  pauseMusic := record "music.pause"
  resumeMusic := record "music.play"
  entityCue := entityCue
  setTile layer place atlas rotation := setTile (layer, place) atlas rotation

end World

end Cutscene
