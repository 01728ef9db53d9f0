import Cutscene.Json.Printer
import Cutscene.Session.Sources
import Cutscene.Thread.Scheduler

/-!
# The scripts of a scene

The scripts that belong to the scene that is played: their memory, their threads, and the thread of
the entry function. The entry thread is kept when it ends, so that what it has returned can be
logged.
-/

namespace Cutscene

/-- Why scripts could not be started. -/
inductive ScriptError where
  /-- The file could not be read. -/
  | file (path : String) (error : FileError)
  /-- The text is no script, or what it does when it is loaded ends with an error. -/
  | failed (path : String)
deriving DecidableEq, Repr

/-- The wording of an error, without its cause. -/
def ScriptError.message : ScriptError → String
  | .file path _ => s!"reading script {path}"
  | .failed path => s!"running script {path}"

/-- The scripts of a scene. -/
structure SceneScripts [Interpreter] where
  memory : Interpreter.Memory
  scheduler : Scheduler Interpreter.Context
  /-- The entry thread, until it has ended. -/
  entry : Option Nat

namespace SceneScripts

variable [Interpreter]

/-- The function that a thread is started with when the script is loaded. -/
def entryName : String := "start"

/-- The state that the scripts run in when they act on something, at the first of some readings of
the clock. -/
def state (scripts : SceneScripts) (clock : Nat → Nat) (r : Reach) : Interpreter.State :=
  Interpreter.restore scripts.memory r clock

/-- The scripts with their threads and their state changed. -/
def settle (entry : Option Nat) (scheduler : Scheduler Interpreter.Context)
    (s : Interpreter.State) : SceneScripts × Reach :=
  (⟨Interpreter.memory s, scheduler, entry⟩, Interpreter.reach s)

/-- Creates the entry thread, if there is a function for it. -/
def begin (path : String) (watchdog : Watchdog) (s : Interpreter.State) : SceneScripts × Reach :=
  let scheduler := Scheduler.empty watchdog
  match Interpreter.function? entryName s with
  | some function =>
    let (entry, scheduler, s) :=
      scheduler.createThread Interpreter.machine function none true s
    let (scripts, r) := settle entry scheduler s
    (scripts, match entry with
      | some _ => r
      | none => r.note ⟨.warn, s!"script {path} could not start '{entryName}'"⟩)
  | none =>
    let (scripts, r) := settle none scheduler s
    (scripts, r.note ⟨.debug, s!"script {path} has no '{entryName}' function"⟩)

/-- Loads a script and creates its entry thread. -/
def start (sources : Sources) (watchdog : Watchdog) (path : String) (r : Reach) :
    Except ScriptError SceneScripts × Reach :=
  match sources.script path with
  | .error e => (.error (.file path e), r)
  | .ok chunk =>
    match Interpreter.load chunk (Interpreter.fresh r) with
    | (false, s) => (.error (.failed path), Interpreter.reach s)
    | (true, s) =>
      let (scripts, r) := begin path watchdog (Interpreter.opening s)
      (.ok scripts, r)

/-- A result as it is logged: a text bare, anything else as JSON. -/
def resultText : Json → String
  | .string text => text
  | j => j.compact

/-- Logs what a thread that ran to its end has returned. -/
def logResults (c : Interpreter.Context) (r : Reach) : Reach :=
  let results := Interpreter.results c
  if Interpreter.stateOf c = .finished ∧ results ≠ [] then
    let label := Interpreter.machine.label c
    let values := " ".intercalate (results.map resultText)
    { r with chronicle := r.chronicle.record s!"script.{label} returned {values}" }
  else r

/-- Resumes every thread once; when the entry thread has ended, logs what it has returned. -/
def tick (scripts : SceneScripts) (clock : Nat → Nat) (r : Reach) : SceneScripts × Reach :=
  let (scheduler, s) := scripts.scheduler.tick Interpreter.machine (scripts.state clock r)
  match scripts.entry with
  | none => settle none scheduler s
  | some id =>
    if scheduler.isAlive id then settle (some id) scheduler s
    else
      match scheduler.takeRetained id with
      | (some c, scheduler) =>
        let (scripts, r) := settle none scheduler s
        (scripts, logResults c r)
      | (none, scheduler) => settle none scheduler s

/-- Ends every thread. Nothing is left of the scripts but what they have done. The clock does not
matter, because no deadline is set. -/
def close (scripts : SceneScripts) (r : Reach) : Reach :=
  let s := scripts.state (fun _ => 0) r
  Interpreter.reach (scripts.scheduler.abortAll Interpreter.machine s).2

/-- How many threads are alive. -/
def liveThreads (scripts : SceneScripts) : Nat := scripts.scheduler.size

end SceneScripts

end Cutscene
