import Cutscene.Numeric.Binary

/-!
# Operations

The steps that scene events are made of. An operation is a template: whatever changes while it runs
is kept by the frame that runs it, so that one event can be active in several places.

The inline operations of an operation are a part of it, as in a scene file, and no event that other
operations could share: where they become an event, that is made for this one place
(`Event.inlined`).

Numbers have the width they have in scene files, so every operation of this type can be written to
a file and read back.
-/

namespace Cutscene

open Numeric

/-- A direction that an entity can face. -/
inductive Direction where
  | up
  | down
  | left
  | right
deriving DecidableEq, Repr

/-- The name of a direction. -/
def Direction.label : Direction → String
  | up => "up"
  | down => "down"
  | left => "left"
  | right => "right"

/-- A command to the current speaker. -/
inductive Cue where
  /-- Selects the speaker; no name or an empty one clears it. -/
  | speaker (name : Option String)
  /-- Moves by a distance in pixels or, with `set`, to a position in tiles. -/
  | move (x y : Single) (set : Bool)
  | setCycleGroup (group : String)
  | setAnimation (name : String)
  | animationStart (looped : Bool)
  | animationStop
  | setDirection (direction : Direction)
  /-- Starts or stops the animation of speech. -/
  | speech (active : Bool)
deriving DecidableEq

/-- A command to the music. -/
inductive MusicAction where
  | set (path : String) (looped : Bool)
  | stop
  | pause
  | play
deriving DecidableEq, Repr

/-- Narrative text. With a negative interval all of it is shown at once. -/
structure Say where
  text : String
  expression : Option String
  intervalMs : Int64
  append : Bool
deriving DecidableEq, Repr

/-- One of the two options of a selection: its label and the event that it calls. -/
structure Choice where
  label : String
  event : String
deriving DecidableEq, Repr

/-- A rectangle of tiles of one layer, the corner `stop` excluded, and the tile that fills it. -/
structure TileFill where
  layer : UInt64
  start : Int32 × Int32
  stop : Int32 × Int32
  atlas : String
  rotation : Int32
deriving DecidableEq, Repr

/-- One step of an event. -/
inductive Operation where
  /-- Types a text into the dialog box. -/
  | say (say : Say)
  /-- Lets time pass. -/
  | wait (durationMs : UInt64)
  /-- Waits until activate is pressed. -/
  | waitForKey
  /-- Closes the dialog box. -/
  | hideBox
  /-- Offers two options and calls the event of the one chosen. -/
  | selection (first second : Choice)
  /-- A command to the speaker. -/
  | entity (cue : Cue)
  | flagSet (flag : String)
  | flagUnset (flag : String)
  /-- With the flag set, calls the inline operations if there are any, otherwise the named event. The
  inline operations are an event of this operation alone. -/
  | flagIf (flag : String) (event : Option String) (inlined : Option (List Operation))
  /-- With the flag set, ends the event. -/
  | flagExitIf (flag : String)
  /-- With the flag set, ends the event; otherwise sets it. -/
  | flagOnce (flag : String)
  /-- A command to the music. -/
  | music (action : MusicAction)
  /-- Changes the scene. -/
  | sceneLoad (path : String) (door : Option String)
  | tileReplace (fill : TileFill)
  /-- Makes the overlay transparent. -/
  | fadeIn (durationMs : UInt64)
  /-- Makes the overlay opaque. -/
  | fadeOut (durationMs : UInt64)
  /-- Stands for an operation of an unknown kind. -/
  | unsupported (opcode : String)
deriving Inhabited, BEq

namespace Operation

/-- The names of the kinds of operations. -/
def opcodes : List String :=
  ["say", "wait", "wait_for_key", "hide_box", "selection", "entity", "flag_set", "flag_unset",
    "flag_if", "flag_exit_if", "flag_once", "music", "scene_load", "tile_replace", "fade_in",
    "fade_out", "unsupported"]

/-- The kind of an operation. -/
def opcode : Operation → String
  | say _ => "say"
  | wait _ => "wait"
  | waitForKey => "wait_for_key"
  | hideBox => "hide_box"
  | selection .. => "selection"
  | entity _ => "entity"
  | flagSet _ => "flag_set"
  | flagUnset _ => "flag_unset"
  | flagIf .. => "flag_if"
  | flagExitIf _ => "flag_exit_if"
  | flagOnce _ => "flag_once"
  | music _ => "music"
  | sceneLoad .. => "scene_load"
  | tileReplace _ => "tile_replace"
  | fadeIn _ => "fade_in"
  | fadeOut _ => "fade_out"
  | unsupported _ => "unsupported"

/-- Whether a name is the kind of an operation. -/
def isOpcode (name : String) : Bool := opcodes.contains name

end Operation

/-- The reveal interval of a text that has none of its own, in milliseconds. -/
def defaultDialogIntervalMs : Int64 := 25

/-- A dialog click is heard for every so many characters. -/
def dialogClickInterval : Nat := 2

/-- The duration of a fade that has none of its own, in milliseconds. -/
def defaultFadeMs : UInt64 := 200

/-- The side of a tile, in pixels. -/
def tileSize : Single := .ofNat 32

end Cutscene
