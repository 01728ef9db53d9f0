import Cutscene.CommandLine.Arguments
import Cutscene.Script.Interpreter
import Cutscene.Session

/-!
# Running a scene from the command line

What the program does with its arguments, apart from reading and writing files: which presses and
walks belong to a frame, what is printed, and how the run can fail.

The time of a session is kept in whole seconds of 64 bits and nanoseconds. A run that would go
beyond breaks off.
-/

namespace Cutscene.CommandLine

/-- Nanoseconds that are beyond all times. -/
def clockLimit : Nat := UInt64.size * 1000000000

/-- How a session runs that is asked for. -/
def Arguments.config (args : Arguments) : SessionConfig :=
  ⟨args.frameMs * 1000000, ⟨args.watchdogMs * 1000000⟩⟩

/-- The session with the input for one frame: every press, and the last walk. -/
def Arguments.input (args : Arguments) (frame : Nat) (s : Session) : Session :=
  let s := (args.presses.filter (·.frame == frame)).foldl (fun s p => s.press p.control) s
  match args.walks.reverse.find? (·.frame == frame) with
  | some w => s.walkTo w.position
  | none => s

/-- Why a run ends early. -/
inductive Failure where
  /-- The session could not begin. -/
  | load (path : String) (error : LoadError)
  /-- The time is beyond what can be kept. -/
  | clockOverflow
  /-- The summary could not be written. -/
  | write (path : String) (error : FileError)
deriving DecidableEq, Repr

/-- What is reported of a failure. -/
def Failure.message? : Failure → Option String
  | .load path _ => some s!"Error: starting scene {path}"
  | .clockOverflow => none
  | .write path _ => some s!"Error: writing event log JSON to {path}"

/-- The exit code of a failure. -/
def Failure.exitCode : Failure → Nat
  | .clockOverflow => 101
  | _ => 1

/-- A frame is over; the run goes on if the time can be kept. -/
def checkClock (s : Session) : Except Failure Session :=
  if s.now < clockLimit then .ok s else .error .clockOverflow

/-- Plays `count` frames, the first of which has a number. -/
def play (sources : Sources) (args : Arguments) : Nat → Nat → Session → Except Failure Session
  | _, 0, s => .ok s
  | number, count + 1, s =>
    match checkClock ((args.input number s).frame sources) with
    | .ok s => play sources args (number + 1) count s
    | .error e => .error e

/-- Plays a scene; gives what is told of it. -/
def summarize (sources : Sources) (args : Arguments) : Except Failure Summary :=
  match (Session.load sources args.config args.scene).2 with
  | .error e => .error (.load args.scene e)
  | .ok s => (play sources args 0 args.frames s).map Session.summary

/-! ## Output -/

/-- The lines that are printed of a run. -/
def report (args : Arguments) (s : Summary) : List String :=
  let events := s.events.length
  let flags := s.flags.length
  let threads := s.threads.length
  let head := s!"Scene {s.scene} after {s.frames} frame(s): {events} event(s), " ++
    s!"{flags} flag(s), {threads} live thread(s)"
  let pages := s.transcript.map fun page => s!"  > {page}"
  let listed := if args.verbose then s.events.map fun event => s!"  {event}" else []
  head :: pages ++ listed

/-- What is printed when the summary has been written. -/
def savedLine (path : String) : String := s!"Saved event log JSON to {path}"

/-- Lines as text. -/
def unlines (lines : List String) : String := String.join (lines.map (· ++ "\n"))

/-- How a run of the program ends. -/
structure Outcome where
  exitCode : Nat
  /-- What is printed. -/
  output : String
  /-- The first line of the error that is reported. -/
  error : Option String
deriving DecidableEq, Repr

namespace Outcome

/-- A failure after some output. -/
def failed (lines : List String) (f : Failure) : Outcome := ⟨f.exitCode, unlines lines, f.message?⟩

/-- A run that ends as it should. -/
def done (lines : List String) : Outcome := ⟨0, unlines lines, none⟩

/-- The outcome after an attempt to write the summary. -/
def written (lines : List String) (path : String) : Except FileError Unit → Outcome
  | .ok () => done (lines ++ [savedLine path])
  | .error e => failed lines (.write path e)

end Outcome

/-- The summary as it is written to a file. -/
def document (s : Summary) : ByteArray := s.toJson.pretty.toUTF8

/-- Runs the program on its arguments. `read` and `write` say how `files` serves as a store of
files; the clock is that of `Sources`. -/
def run {σ : Type} (read : σ → Files) (write : String → ByteArray → σ → Except FileError σ)
    (args : Arguments) (files : σ) (clock : Nat → Nat → Nat := fun _ _ => 0) : Outcome × σ :=
  match summarize (Sources.ofFiles (read files) clock) args with
  | .error e => (.failed [] e, files)
  | .ok summary =>
    let lines := report args summary
    match args.eventLogJson with
    | none => (.done lines, files)
    | some path =>
      match write path (document summary) files with
      | .error e => (.written lines path (.error e), files)
      | .ok files => (.written lines path (.ok ()), files)

/-! ## Usage -/

/-- The version of the program. -/
def versionText : String := "rpg_engine 0.1.0\n"

/-- What an option is for. -/
def Opt.purpose : Opt → String
  | scene => "Scene JSON file to load"
  | frames => "Number of frames to simulate [default: 600]"
  | frameMs => "Simulated milliseconds per frame [default: 16]"
  | watchdogMs =>
    "Milliseconds a script may run in one resume before it is aborted [default: 5000]"
  | press => "Press a control on a frame, as FRAME:CONTROL (activate, next, prev)"
  | walk => "Walk the player to a pixel position on a frame, as FRAME:X,Y"
  | eventLogJson => "Path to write the run summary and event log as JSON"
  | verbose => "Print every logged world event after the run"
  | help => "Print help"
  | version => "Print version"

/-- The letter of an option, or blanks in its place. -/
def Opt.letter : Opt → String
  | help => "-h, "
  | version => "-V, "
  | _ => "    "

/-- The help that is printed. -/
def helpText : String :=
  let option (o : Opt) : String := s!"  {o.letter}{o.display}\n          {o.purpose}\n"
  "Headless scene runner for event scripts and Lua threads\n\n" ++
    "Usage: rpg_engine [OPTIONS] --scene <SCENE>\n\nOptions:\n" ++
    String.join (Opt.all.map option)

/-- What a usage error prints, where it is no error but a question. -/
def UsageError.answer? : UsageError → Option String
  | .help => some helpText
  | .version => some versionText
  | _ => none

/-- The outcome of a usage error. -/
def UsageError.outcome (e : UsageError) : Outcome :=
  match e.answer? with
  | some text => ⟨0, text, none⟩
  | none => ⟨2, "", none⟩

end Cutscene.CommandLine
