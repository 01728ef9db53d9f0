import Cutscene.CommandLine.Run

/-!
# The program

Reads files, prints, and leaves the rest to the library. A scene or a script is read from its file
when the session is about to load it: before a turn of the events that changes the scene, and before
the scripts of a new scene start. Each of these steps is given sources that hold just that file.
Nobody looks at a clock while a script runs, so a script is cut off by its number of steps only.
-/

namespace Cutscene.CommandLine

/-- What an error of the system means. -/
def fileErrorOf : IO.Error → FileError
  | .noFileOrDirectory .. => .notFound
  | .inappropriateType .. => .isDirectory
  | _ => .refused

/-- The sources that hold the file at a path, as it is now. -/
def sourcesAt (path : String) : IO Sources := do
  let content : Except FileError ByteArray ←
    try
      let bytes ← IO.FS.readBinFile path
      pure (.ok bytes)
    catch e => pure (.error (fileErrorOf e))
  return .ofFiles fun p => if p = path then content else .error .notFound

/-- The sources that hold nothing. -/
def noSources : Sources := .ofFiles fun _ => .error .notFound

/-- The sources that hold the file at a path, if there is a path. -/
def sourcesAt? : Option String → IO Sources
  | some path => sourcesAt path
  | none => pure noSources

/-- Begins the session that is asked for. -/
def beginSession (args : Arguments) : IO (List Line × Except LoadError Session) := do
  let scenes ← sourcesAt args.scene
  let script? := match (scenes.scene args.scene).2 with
    | .ok scene => scene.script
    | .error _ => none
  let scripts ← sourcesAt? script?
  return Session.load { scenes with script := scripts.script } args.config args.scene

/-- Runs the events of a frame, turn by turn. -/
partial def playEvents (s : Session) : IO (TickStatus × Session) := do
  let sources ← sourcesAt? s.nextScene?
  match Tracker.turn (Session.stage sources) s.now s.tracker s.world with
  | .ended status tracker world => return (status, { s with tracker, world })
  | .more tracker world => playEvents { s with tracker, world }

/-- Plays one frame. -/
def playFrame (s : Session) : IO Session := do
  let (status, s) ← playEvents (s.beginFrame noSources)
  let sources ← sourcesAt? (s.world.pendingScript.getD none)
  return s.finishFrame sources status

/-- Reports lines that are urgent enough. -/
def reportLines (args : Arguments) (lines : List Line) : IO Unit := do
  let least := if args.verbose then Level.debug else .error
  for line in lines do
    if line.level.rank ≤ least.rank then IO.eprintln line.text

/-- Reports the lines of a session. -/
def reportJournal (args : Arguments) (s : Session) : IO Session := do
  let (lines, world) := s.world.takeJournal
  reportLines args lines
  return { s with world }

/-- Plays frames from one number up to another. -/
partial def playFrames (args : Arguments) (number : Nat) (s : Session) :
    IO (Except Failure Session) := do
  if args.frames ≤ number then return .ok s
  match checkClock (← playFrame (args.input number s)) with
  | .ok s => playFrames args (number + 1) (← reportJournal args s)
  | .error e => return .error e

/-- Prints how a run ends. -/
def finishRun (o : Outcome) : IO UInt32 := do
  IO.print o.output
  match o.error with
  | some text => IO.eprintln text
  | none => pure ()
  return UInt32.ofNat o.exitCode

/-- Writes the summary where that is asked for. -/
def writeSummary (args : Arguments) (summary : Summary) : IO Outcome := do
  let lines := report args summary
  match args.eventLogJson with
  | none => return .done lines
  | some path =>
    try
      IO.FS.writeBinFile path (document summary)
      return .written lines path (.ok ())
    catch e => return .written lines path (.error (fileErrorOf e))

/-- Runs the program on its arguments. -/
def runProgram (args : Arguments) : IO UInt32 := do
  match ← beginSession args with
  | (lines, .error e) =>
    reportLines args lines
    finishRun (.failed [] (.load args.scene e))
  | (lines, .ok s) =>
    reportLines args lines
    match ← playFrames args 0 (← reportJournal args s) with
    | .error e => finishRun (.failed [] e)
    | .ok s =>
      let _ ← reportJournal args s.shutdown
      finishRun (← writeSummary args s.summary)

end Cutscene.CommandLine

open Cutscene.CommandLine in
/-- The program. -/
def main (argv : List String) : IO UInt32 := do
  match Arguments.parse argv with
  | .ok args => runProgram args
  | .error e =>
    match e with
    | .badValue option value reason => IO.eprintln (badValueMessage option value reason)
    | _ => pure ()
    finishRun e.outcome
