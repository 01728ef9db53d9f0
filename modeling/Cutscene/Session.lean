import Cutscene.Session.Scripts
import Cutscene.Tracker
import Cutscene.World

/-!
# Sessions

A session plays a scene frame by frame: the event tracker, the scripts of the scene and the world
that both act on. In one frame the player walks, a button trigger under the player may fire, events
run, and then scripts. What scripts want to be called is called at the end of the frame and runs in
the next one. Presses last for one frame.

When events change the scene, the scripts of the old scene end and those of the new one start, and
what the old scripts still wanted to be called is dropped.

Which scripts these are and how they run is up to the interpreter at hand.
-/

namespace Cutscene

/-- How a session runs. -/
structure SessionConfig where
  /-- The time that a frame takes, in nanoseconds. -/
  frame : Nat
  watchdog : Watchdog
deriving DecidableEq, Repr

/-- Sixteen milliseconds a frame. -/
def SessionConfig.standard : SessionConfig := ⟨16000000, .standard⟩

/-- A scene that is played. -/
structure Session [Interpreter] where
  tracker : Tracker
  scripts : Option SceneScripts
  world : World
  /-- The events that scripts want to be called, the oldest first. -/
  calls : Array String
  config : SessionConfig
  /-- Where the player walks to at the start of the next frame. -/
  pendingWalk : Option Point
  /-- The time since the beginning, in nanoseconds. -/
  now : Nat
  /-- How many frames have been played. -/
  frames : Nat

/-- Why no session could begin. -/
inductive LoadError where
  | scene (path : String) (error : SceneError)
  | script (error : ScriptError)
deriving DecidableEq, Repr

/-- What is told of a session when it is over. -/
structure Summary where
  scene : String
  frames : Nat
  events : List String
  flags : List String
  transcript : List String
  threads : List String
deriving DecidableEq, Repr

namespace Session

variable [Interpreter]

/-! ## Parts of a session -/

/-- What scripts act on. -/
def reach (s : Session) : Reach := ⟨s.world.chronicle, s.calls⟩

/-- The session after scripts have acted. -/
def withReach (s : Session) (r : Reach) : Session :=
  { s with world := { s.world with chronicle := r.chronicle }, calls := r.calls }

/-- Appends a line to the journal. -/
def note (line : Line) (s : Session) : Session := { s with world := s.world.note line }

/-- How many script threads are alive. -/
def liveThreads (s : Session) : Nat := s.scripts.elim 0 SceneScripts.liveThreads

/-- Presses a control. -/
def press (c : Control) (s : Session) : Session := { s with world := s.world.press c }

/-- Lets the player walk at the start of the next frame. -/
def walkTo (p : Point) (s : Session) : Session := { s with pendingWalk := some p }

section

variable (sources : Sources)

/-- The world as the stage of the events. -/
def stage : Stage World := World.stage sources.scene

/-- Calls an event, unless it is running. -/
def call (e : Event) (s : Session) : Session :=
  let (_, tracker, world) := s.tracker.call (stage sources) e s.world
  { s with tracker, world }

/-! ## Scripts -/

/-- Starts a script. -/
def startScripts (path : String) (s : Session) : Except ScriptError Unit × Session :=
  let (result, r) := SceneScripts.start sources s.config.watchdog path s.reach
  let s := s.withReach r
  match result with
  | .ok scripts => (.ok (), { s with scripts := some scripts })
  | .error e => (.error e, s)

/-- Ends the scripts. -/
def closeScripts (s : Session) : Session :=
  match s.scripts with
  | some scripts => { s.withReach (scripts.close s.reach) with scripts := none }
  | none => s

/-- Replaces the scripts by those of a new scene. -/
def swapScripts (script : Option String) (s : Session) : Session :=
  let s := { s.closeScripts with calls := #[] }
  match script with
  | none => s
  | some path =>
    match startScripts sources path s with
    | (.ok (), s) => s
    | (.error _, s) => s.note ⟨.error, s!"scene script {path} not started"⟩

/-! ## One frame -/

/-- Moves the player, if that is allowed. -/
def walk (p : Point) (s : Session) : Session :=
  if s.world.movementLocked then
    let x := p.x.diagnostic
    let y := p.y.diagnostic
    s.note ⟨.debug, s!"walk to ({x}, {y}) ignored while movement is locked"⟩
  else
    match World.fireTrigger .touch p { s.world with player := p } with
    | (some e, world) => call sources e { s with world }
    | (none, world) => { s with world }

/-- Moves the player where a walk is pending. -/
def takeWalk (s : Session) : Session :=
  match s.pendingWalk with
  | some p => walk sources p { s with pendingWalk := none }
  | none => s

/-- Fires a button trigger under the player, if activate is pressed; that takes the press. -/
def pushButton (s : Session) : Session :=
  if s.world.input.has .activate && !s.world.movementLocked then
    match s.world.fireTrigger .button s.world.player with
    | (some e, world) => call sources e { s with world := (world.consume .activate).2 }
    | (none, world) => { s with world }
  else s

/-- The first part of a frame: what the player does. -/
def beginFrame (s : Session) : Session := pushButton sources (takeWalk sources s)

/-- The second part of a frame: events run until none can go on. -/
def runEvents (s : Session) : TickStatus × Session :=
  let (status, tracker, world) := s.tracker.tick (stage sources) s.now s.world
  (status, { s with tracker, world })

/-- When nothing is left to run, no box stays open. -/
def closeIdleBox (status : TickStatus) (s : Session) : Session :=
  if status = .idle ∧ s.world.narrative.isOpen then { s with world := s.world.closeBox } else s

/-- Replaces the scripts if the scene has changed. -/
def followScene (s : Session) : Session :=
  match s.world.takePendingScript with
  | (some script, world) => swapScripts sources script { s with world }
  | (none, _) => s

/-- Runs the scripts. -/
def runScripts (s : Session) : Session :=
  match s.scripts with
  | some scripts =>
    let (scripts, r) := scripts.tick (sources.clock s.frames) s.reach
    { s.withReach r with scripts := some scripts }
  | none => s

/-- Calls an event that a script wants to be called. -/
def answerCall (s : Session) (name : String) : Session :=
  match s.world.library.find? name with
  | some e => call sources e s
  | none => s.note ⟨.error, s!"call_event: event '{name}' not found"⟩

/-- Calls what scripts want to be called. -/
def answerCalls (s : Session) : Session :=
  s.calls.toList.foldl (answerCall sources) { s with calls := #[] }

/-- The end of a frame: presses are forgotten and the time goes on. -/
def endFrame (s : Session) : Session :=
  { s with
    world := s.world.clearInput
    now := s.now + s.config.frame
    frames := s.frames + 1 }

/-- The last part of a frame, after the events: scripts run and are answered. -/
def finishFrame (status : TickStatus) (s : Session) : Session :=
  let s := closeIdleBox status s
  let s := followScene sources s
  let s := runScripts sources s
  let s := answerCalls sources s
  endFrame s

/-- Plays one frame. -/
def frame (s : Session) : Session :=
  let (status, s) := runEvents sources (beginFrame sources s)
  finishFrame sources status s

/-- Plays some frames. -/
def run : Nat → Session → Session
  | 0, s => s
  | n + 1, s => run n (frame sources s)

end

/-! ## Beginning and end -/

/-- Ends the scripts and the events of a session. -/
def shutdown (s : Session) : Session :=
  let s := { s.closeScripts with tracker := .empty }
  let s := if s.world.narrative.isOpen then { s with world := s.world.closeBox } else s
  s.note ⟨.debug, s!"scene {s.world.scene} shut down"⟩

/-- A session at the beginning of a scene, its start event queued, before any script runs. -/
def opening (sources : Sources) (config : SessionConfig) (world : World) : Session :=
  let s : Session := ⟨.empty, none, world, #[], config, none, 0, 0⟩
  match world.library.start? with
  | some e =>
    let (tracker, world) := s.tracker.queueFront (stage sources) e world
    { s with tracker, world }
  | none => s

/-- Begins a session with the scene at a path. -/
def load (sources : Sources) (config : SessionConfig) (path : String) :
    List Line × Except LoadError Session :=
  match sources.scene path with
  | (lines, .error e) => (lines, .error (.scene path e))
  | (lines, .ok scene) =>
    let s := opening sources config (World.ofScene scene)
    let (result, s) := match scene.script with
      | some script => startScripts sources script s
      | none => (.ok (), s)
    match result with
    | .error e => (lines ++ s.shutdown.world.chronicle.journal.toList, .error (.script e))
    | .ok () => (lines, .ok (s.note ⟨.info, s!"scene {s.world.scene} loaded from {path}"⟩))

/-- The scene that the next turn of the events loads, if it loads one. -/
def nextScene? (s : Session) : Option String :=
  match Tracker.settle s.tracker.frames with
  | [] => none
  | f :: _ => match f.operation? with
    | some (.sceneLoad path _) => some (Text.Path.join s.world.directory path)
    | _ => none

/-- What is told of a session. -/
def summary (s : Session) : Summary where
  scene := s.world.scene
  frames := s.frames
  events := s.world.chronicle.log.toList
  flags := s.world.chronicle.flags.toList
  transcript := s.world.transcript.toList
  threads := s.scripts.elim [] (·.scheduler.labels)

end Session

/-- A summary as JSON. -/
def Summary.toJson (s : Summary) : Json :=
  .object [("scene", .string s.scene), ("frames", .integer s.frames), ("events", .ofTexts s.events),
    ("flags", .ofTexts s.flags), ("transcript", .ofTexts s.transcript),
    ("threads", .ofTexts s.threads)]

end Cutscene
