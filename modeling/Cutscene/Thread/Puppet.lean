import Cutscene.Thread.Registry
import Cutscene.Thread.Scheduler

/-!
# Puppets

A machine whose scripts are lists of moves. It does nothing but what its moves say and writes down
everything that the scheduler asks of it, which makes it the machine to watch a scheduler with.
-/

namespace Cutscene

namespace Puppet

/-- One move of a script. -/
inductive Move where
  /-- Ends the resume in a state. -/
  | stop (state : ContextState)
  /-- Lets time pass until the deadline has come, then fails. -/
  | spin
  /-- Lets time pass. -/
  | advance (nanos : Nat)
  /-- Notes the deadline. -/
  | check
  /-- Asks for a thread. -/
  | spawn (function : Option String) (args : Option Int)
  | publish (name : String) (value : Int)
  | fetch (name : String)
  /-- Notes the argument. -/
  | args
  /-- Nothing. -/
  | pass
deriving DecidableEq, Repr

/-- What is written down. -/
inductive Note where
  | resume (label : String)
  | spun (count : Nat)
  | deadline (expired : Bool) (remaining : Nat)
  | fetched (name : String) (value : Option Int)
  | args (value : Option Int)
  | abort (label : String)
  | recycle (label : String) (state : ContextState)
  | collectStep
  | collectFull
deriving DecidableEq, Repr

/-- A script under way. -/
structure Context where
  label : String
  args : Option Int
  state : ContextState
  /-- How many moves have been made. -/
  made : Nat
  /-- The moves to come. -/
  moves : List Move

/-- The state of the machine. -/
structure Theatre where
  scripts : List (String × List Move)
  clock : Nat
  registry : Registry Int
  /-- The threads asked for, the latest first. -/
  spawned : List (SpawnRequest (Option String) Int)
  /-- How many contexts have been prepared. -/
  prepared : Nat
  /-- Whether there is no room for contexts. -/
  exhausted : Bool
  notes : Array Note
  journal : Journal

namespace Theatre

/-- A machine that has done nothing. -/
def opening (scripts : List (String × List Move)) : Theatre :=
  ⟨scripts, 0, .empty, [], 0, false, #[], #[]⟩

/-- Writes something down. -/
def write (n : Note) (s : Theatre) : Theatre := { s with notes := s.notes.push n }

/-- Puts a value under a name. -/
def publish (name : String) (value : Int) (s : Theatre) : Theatre :=
  let (registry, lines) := s.registry.publish name value
  { s with registry, journal := s.journal ++ lines }

end Theatre

/-- Nanoseconds in one step of a spinning script. -/
def spinStep : Nat := 1000000

/-- The most steps that a spinning script makes. -/
def spinLimit : Nat := 100000

/-- Makes moves until one ends the resume. -/
def play (d : Deadline) (args : Option Int) :
    List Move → Nat → Theatre → ContextState × Nat × List Move × Theatre
  | [], made, s => (.finished, made, [], s)
  | move :: rest, made, s =>
    match move with
    | .stop state => (state, made + 1, rest, s)
    | .spin =>
      let count := min spinLimit ((d.remaining s.clock + spinStep - 1) / spinStep)
      (.aborted, made + 1, rest,
        .write (.spun count) { s with clock := s.clock + count * spinStep })
    | .advance nanos => play d args rest (made + 1) { s with clock := s.clock + nanos }
    | .check =>
      play d args rest (made + 1)
        (s.write (.deadline (d.isExpired s.clock) (d.remaining s.clock)))
    | .spawn function value =>
      play d args rest (made + 1) { s with spawned := ⟨function, value⟩ :: s.spawned }
    | .publish name value => play d args rest (made + 1) (s.publish name value)
    | .fetch name =>
      play d args rest (made + 1) (s.write (.fetched name (s.registry.fetch? name)))
    | .args => play d args rest (made + 1) (s.write (.args args))
    | .pass => play d args rest (made + 1) s

/-- Prepares a script by its name. -/
def prepare (function : Option String) (args : Option Int) (s : Theatre) :
    Except PrepareError Context × Theatre :=
  let script? := function.bind fun name => (s.scripts.find? (·.1 == name)).map (·.2)
  match script? with
  | none => (.error (.invalidFunction (function.getD "nil")), s)
  | some moves =>
    if s.exhausted then (.error (.noContext "pool exhausted"), s)
    else
      let number := s.prepared + 1
      (.ok ⟨s!"fake#{number}", args, .ready, 0, moves⟩, { s with prepared := number })

/-- Resumes a script. -/
def resume (c : Context) (d : Deadline) (s : Theatre) : ContextState × Context × Theatre :=
  if c.state.isResumable then
    let (state, made, moves, s) := play d c.args c.moves c.made (s.write (.resume c.label))
    (state, { c with state, made, moves }, s)
  else (c.state, c, s)

/-- Puppets as a machine. -/
def machine : Machine Theatre (Option String) Int Context where
  now s := s.clock
  note l s := { s with journal := s.journal.push l }
  prepare := prepare
  resume := resume
  abort c s := ({ c with state := .aborted }, s.write (.abort c.label))
  recycle c s := s.write (.recycle c.label c.state)
  takeSpawned s := (s.spawned.reverse, { s with spawned := [] })
  collectStep := .write .collectStep
  collectFull := .write .collectFull
  label c := c.label

end Puppet

end Cutscene
