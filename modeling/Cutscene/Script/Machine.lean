import Cutscene.Script.Activation

/-!
# Scripts as threads

The machine that the scheduler runs scripts with. A context is a function that has not been called
yet, or the activations that a thread gave way with. A thread that has called `abort`, or whose
deadline was found to have come, ends with the resume, even if it caught the error.
-/

namespace Cutscene.Script

/-- What a thread goes on with. -/
inductive Coroutine where
  | fresh (f : Value) (args : List Value)
  | paused (stack : List Activation)

/-- A thread of a script. -/
structure Context where
  label : String
  coroutine : Coroutine
  state : ContextState
  /-- What the function has returned, as far as it has a JSON form. -/
  results : List Json

namespace State

/-- The state at the beginning of a resume. -/
def beginResume (label : String) (s : State) : State :=
  { s.pass with
    memory := { s.memory with executing := some label, abortRequested := false, timedOut := false } }

/-- The state at the end of a resume. -/
def endResume (s : State) : State := { s with memory := { s.memory with executing := none } }

/-- The label and the function of an entry. -/
def entry (e : Entry) (s : State) : Except PrepareError (String × Value) × State :=
  match e with
  | .global name =>
    let v := s.global name
    if v.isFunction then (.ok (name, v), s)
    else (.error (.invalidFunction s!"{name} is {v.typeName}"), s)
  | .value v =>
    let number := s.memory.nextLabel
    (.ok (s!"thread#{number}", v), { s with memory := { s.memory with nextLabel := number + 1 } })

/-- The value of an argument. -/
def argument (a : Argument) (s : State) : Value × State :=
  match a with
  | .value v => (v, s)
  | .json j =>
    let (v, next) := Value.ofJson s.memory.nextId j
    (v, { s with memory := { s.memory with nextId := next } })

end State

/-- Binds a function and its argument to a new context. -/
def prepare (e : Entry) (arg : Option Argument) (s : State) : Except PrepareError Context × State :=
  match s.entry e with
  | (.error error, s) => (.error error, s)
  | (.ok (label, f), s) =>
    match arg with
    | none => (.ok ⟨label, .fresh f [], .ready, []⟩, s)
    | some a =>
      let (v, s) := s.argument a
      (.ok ⟨label, .fresh f [v], .ready, []⟩, s)

/-- Runs a coroutine until it gives way or ends. -/
def Coroutine.resume (watch : Watch) (c : Coroutine) (s : State) : Ending × State :=
  let outcome := match c with
    | .fresh f args => enter (some watch) f args [] s
    | .paused stack => deliver [] stack s
  outcome.settle (some watch)

/-- The context after a resume. -/
def conclude (c : Context) (e : Ending) (s : State) : Context × State :=
  if s.memory.abortRequested || s.memory.timedOut then
    let s := if s.memory.abortRequested
      then s.note ⟨.debug, s!"script {c.label} aborted itself"⟩ else s
    ({ c with state := .aborted }, s)
  else match e with
  | .paused stack => ({ c with coroutine := .paused stack, state := .suspended }, s)
  | .finished vs => ({ c with state := .finished, results := vs.filterMap (·.toJson?) }, s)
  | .failed => ({ c with state := .aborted }, s.note ⟨.error, s!"script {c.label} failed"⟩)

/-- Resumes a thread. -/
def resume (c : Context) (d : Deadline) (s : State) : ContextState × Context × State :=
  if c.state.isResumable then
    let (e, s) := c.coroutine.resume ⟨c.label, d⟩ (s.beginResume c.label)
    let (c, s) := conclude c e s.endResume
    (c.state, c, s)
  else (c.state, c, s)

/-- Ends a thread. -/
def abort (c : Context) (s : State) : Context × State :=
  ({ c with state := .aborted },
    if c.state.isResumable then s.note ⟨.debug, s!"script {c.label} aborted"⟩ else s)

/-- The threads asked for since the last time. -/
def takeSpawned (s : State) : List Request × State :=
  (s.memory.spawned.toList, { s with memory := { s.memory with spawned := #[] } })

/-- Scripts as a machine. -/
def machine : Machine State Entry Argument Context where
  now := State.time
  note := State.note
  prepare := prepare
  resume := resume
  abort := abort
  recycle _ s := s
  takeSpawned := takeSpawned
  collectStep := id
  collectFull := id
  label c := c.label

/-! ## Loading -/

/-- Makes a function a global. -/
def define (s : State) (f : String × List Statement) : State :=
  let (id, s) := s.freshId
  s.assign f.1 (.closure id f.2)

/-- Loads a script: defines its functions and runs its statements. Tells whether there was no error;
what was done before an error stays done. -/
def Chunk.load (c : Chunk) (s : State) : Bool × State :=
  let s := c.functions.foldl define s
  let outcome := Outcome.more [.function c.main none 1 0] s
  match outcome.settle none with
  | (.finished _, s) => (true, s)
  | (_, s) => (false, s)

/-- Loads a script, if there is one. -/
def load (chunk : Option Chunk) (s : State) : Bool × State :=
  match chunk with
  | some c => c.load s
  | none => (false, s)

/-- The state when threads are about to be created. They share values among themselves, but not with
what was run when the script was loaded. -/
def State.opening (s : State) : State := { s with memory := { s.memory with registry := .empty } }

end Cutscene.Script
