import Cutscene.Control
import Cutscene.Geometry
import Cutscene.Text.Blank
import Cutscene.Text.Numeral

/-!
# Arguments

The options of the command line. An option takes its value after an equals sign or as the next
argument, which must not look like an option itself. Presses and walks may be given many times, any
other option once. There are no arguments beside options.

The value of an option is read when the next option is met, or at the end. So of two faults the one
further left counts, but an unknown argument counts before a bad value just in front of it.
-/

namespace Cutscene.CommandLine

/-- A press of a control in a frame. -/
structure PressAt where
  frame : Nat
  control : Control
deriving DecidableEq, Repr

/-- A walk to a position in a frame. -/
structure WalkAt where
  frame : Nat
  position : Point
deriving DecidableEq

/-- What the program is asked to do. -/
structure Arguments where
  /-- The path of the scene. -/
  scene : String
  /-- How many frames are played. -/
  frames : Nat
  frameMs : Nat
  watchdogMs : Nat
  presses : List PressAt
  walks : List WalkAt
  /-- Where the summary is written to. -/
  eventLogJson : Option String
  /-- Whether every event is printed. -/
  verbose : Bool
deriving DecidableEq

/-- The options. -/
inductive Opt where
  | scene
  | frames
  | frameMs
  | watchdogMs
  | press
  | walk
  | eventLogJson
  | verbose
  | help
  | version
deriving DecidableEq, Repr

namespace Opt

/-- All options. -/
def all : List Opt :=
  [scene, frames, frameMs, watchdogMs, press, walk, eventLogJson, verbose, help, version]

/-- The name of an option. -/
def name : Opt → String
  | scene => "scene"
  | frames => "frames"
  | frameMs => "frame-ms"
  | watchdogMs => "watchdog-ms"
  | press => "press"
  | walk => "walk"
  | eventLogJson => "event-log-json"
  | verbose => "verbose"
  | help => "help"
  | version => "version"

/-- What the value of an option is called; none if it takes no value. -/
def value? : Opt → Option String
  | scene => some "SCENE"
  | frames => some "FRAMES"
  | frameMs => some "FRAME_MS"
  | watchdogMs => some "WATCHDOG_MS"
  | press => some "PRESSES"
  | walk => some "WALKS"
  | eventLogJson => some "EVENT_LOG_JSON"
  | _ => none

/-- An option as it is written. -/
def display (o : Opt) : String :=
  match o.value? with
  | some value => s!"--{o.name} <{value}>"
  | none => s!"--{o.name}"

/-- The option of a name. -/
def named? (name : String) : Option Opt := all.find? (·.name == name)

end Opt

/-- Why the arguments ask for nothing that can be done. -/
inductive UsageError where
  /-- The scene is missing. -/
  | missingScene
  /-- An option has no value, or an empty one where that is none. -/
  | missingValue (option : Opt)
  /-- The value of an option cannot be read. -/
  | badValue (option : Opt) (value reason : String)
  /-- An argument is no option and no value. -/
  | unknown (argument : String)
  /-- An option that is given once is given again. -/
  | repeated (option : Opt)
  /-- An option that takes no value is given one. -/
  | unneededValue (option : Opt)
  /-- Help is asked for. -/
  | help
  /-- The version is asked for. -/
  | version
deriving DecidableEq, Repr

/-- The wording of an error about the value of an option. -/
def badValueMessage (option : Opt) (value reason : String) : String :=
  s!"error: invalid value '{value}' for '{option.display}': {reason}"

/-! ## Values -/

/-- Reads a number of 64 bits. -/
def readWord (s : String) : Except String Nat :=
  match Text.readUnsigned UInt64.size s.toList with
  | .ok n => .ok n
  | .error fault => .error fault.message

/-- Reads what stands before the first colon as a frame; gives also what stands after it, without
blanks around it. -/
def splitFrame (s : String) : Except String (Nat × String) :=
  match Text.splitFirst? ':' s.toList with
  | none => .error s!"expected FRAME:VALUE, got '{s}'"
  | some (front, rest) =>
    match Text.readUnsigned UInt64.size (Text.trimBlanks front) with
    | .ok frame => .ok (frame, String.ofList (Text.trimBlanks rest))
    | .error _ =>
      let text := String.ofList front
      .error s!"invalid frame number '{text}'"

/-- Reads a press, as in `12:activate`. -/
def readPress (s : String) : Except String PressAt :=
  match splitFrame s with
  | .error reason => .error reason
  | .ok (frame, label) =>
    match Control.parse? label with
    | some control => .ok ⟨frame, control⟩
    | none => .error s!"unknown control '{label}'"

/-- Reads one coordinate. -/
def readCoordinate (axis : String) (cs : List Char) : Except String Numeric.Single :=
  match Text.readFraction? .single (String.ofList (Text.trimBlanks cs)) with
  | some x => .ok x
  | none =>
    let text := String.ofList cs
    .error s!"invalid {axis} coordinate '{text}'"

/-- Reads a walk, as in `4:64,32.5`. -/
def readWalk (s : String) : Except String WalkAt :=
  match splitFrame s with
  | .error reason => .error reason
  | .ok (frame, position) =>
    match Text.splitFirst? ',' position.toList with
    | none => .error s!"expected X,Y, got '{position}'"
    | some (x, y) =>
      match readCoordinate "x" x, readCoordinate "y" y with
      | .ok x, .ok y => .ok ⟨frame, ⟨x, y⟩⟩
      | .error reason, _ => .error reason
      | _, .error reason => .error reason

/-! ## Options -/

/-- The options given so far. -/
structure Given where
  scene : Option String
  frames : Option Nat
  frameMs : Option Nat
  watchdogMs : Option Nat
  /-- The presses, the latest first. -/
  presses : List PressAt
  /-- The walks, the latest first. -/
  walks : List WalkAt
  eventLogJson : Option String
  verbose : Bool

namespace Given

/-- Nothing is given. -/
def nothing : Given := ⟨none, none, none, none, [], [], none, false⟩

/-- Whether an option that is given once has been given. -/
def has (g : Given) : Opt → Bool
  | .scene => g.scene.isSome
  | .frames => g.frames.isSome
  | .frameMs => g.frameMs.isSome
  | .watchdogMs => g.watchdogMs.isSome
  | .eventLogJson => g.eventLogJson.isSome
  | .verbose => g.verbose
  | _ => false

/-- Reads the value of an option. -/
def reading {α : Type} (o : Opt) (value : String) (result : Except String α) :
    Except UsageError α :=
  match result with
  | .ok a => .ok a
  | .error reason => .error (.badValue o value reason)

/-- A path that is not empty. -/
def path (o : Opt) (value : String) : Except UsageError String :=
  if value = "" then .error (.missingValue o) else .ok value

/-- Accepts an option with its value. -/
def accept (g : Given) (o : Opt) (value : String) : Except UsageError Given :=
  if g.has o then .error (.repeated o)
  else match o with
  | .scene => do return { g with scene := some (← path o value) }
  | .frames => do return { g with frames := some (← reading o value (readWord value)) }
  | .frameMs => do return { g with frameMs := some (← reading o value (readWord value)) }
  | .watchdogMs => do return { g with watchdogMs := some (← reading o value (readWord value)) }
  | .press => do return { g with presses := (← reading o value (readPress value)) :: g.presses }
  | .walk => do return { g with walks := (← reading o value (readWalk value)) :: g.walks }
  | .eventLogJson => do return { g with eventLogJson := some (← path o value) }
  | _ => .error (.unneededValue o)

/-- Accepts an option that takes no value. -/
def raise (g : Given) (o : Opt) : Except UsageError Given :=
  match o with
  | .help => .error .help
  | .version => .error .version
  | _ => if g.has o then .error (.repeated o) else .ok { g with verbose := true }

/-- What all the options ask for. -/
def finish (g : Given) : Except UsageError Arguments :=
  match g.scene with
  | none => .error .missingScene
  | some scene =>
    .ok
      { scene
        frames := g.frames.getD 600
        frameMs := g.frameMs.getD 16
        watchdogMs := g.watchdogMs.getD 5000
        presses := g.presses.reverse
        walks := g.walks.reverse
        eventLogJson := g.eventLogJson
        verbose := g.verbose }

end Given

/-- An option that has been named and its value, as far as it has been met. -/
structure Pending where
  option : Opt
  value : Option String

/-- Reads the value of the option that was named last. -/
def settle (g : Given) : Option Pending → Except UsageError Given
  | none => .ok g
  | some ⟨o, none⟩ => .error (.missingValue o)
  | some ⟨o, some value⟩ => g.accept o value

/-- What an argument looks like. -/
inductive Shape where
  /-- Two hyphens: no option follows. -/
  | stop
  /-- An option by its name, perhaps with a value after an equals sign. -/
  | long (name : String) (value : Option String)
  /-- Options by their letters. -/
  | short (letters : List Char)
  | value

/-- What an argument looks like. -/
def shape (arg : String) : Shape :=
  match arg.toList with
  | ['-', '-'] => .stop
  | '-' :: '-' :: rest =>
    match Text.splitFirst? '=' rest with
    | some (name, value) => .long (String.ofList name) (some (String.ofList value))
    | none => .long (String.ofList rest) none
  | '-' :: c :: rest => .short (c :: rest)
  | _ => .value

/-- Reads arguments from left to right. -/
def readOptions (g : Given) (pending : Option Pending) : List String → Except UsageError Given
  | [] => settle g pending
  | arg :: rest =>
    match shape arg with
    | .stop =>
      match rest with
      | [] => settle g pending
      | extra :: _ => .error (.unknown extra)
    | .long name value =>
      match Opt.named? name, value with
      | none, _ => .error (.unknown arg)
      | some o, some value =>
        if o.value?.isSome then do
          let g ← settle g pending
          let g ← g.accept o value
          readOptions g none rest
        else .error (.unneededValue o)
      | some o, none => do
        let g ← settle g pending
        if o.value?.isSome then readOptions g (some ⟨o, none⟩) rest
        else
          let g ← g.raise o
          readOptions g none rest
    | .short letters =>
      match letters with
      | 'h' :: _ => do
        let _ ← settle g pending
        .error .help
      | 'V' :: _ => do
        let _ ← settle g pending
        .error .version
      | _ => .error (.unknown arg)
    | .value =>
      match pending with
      | some ⟨o, none⟩ => readOptions g (some ⟨o, some arg⟩) rest
      | _ => .error (.unknown arg)

/-- Reads the arguments of the program. -/
def Arguments.parse (args : List String) : Except UsageError Arguments := do
  let g ← readOptions .nothing none args
  g.finish

end Cutscene.CommandLine
