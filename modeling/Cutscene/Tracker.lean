import Cutscene.Tracker.Interpreter

/-!
# The event tracker

A stack machine that runs events one operation at a time. The frame on top is active. A frame whose
operation has called an event waits below the frame of that event and goes on with its next
operation when the event has ended; a frame that was interrupted from outside goes on where it was.

`Tracker.turn` is one step: it removes what has ended (`settle`) and executes one operation of the
active frame. `Tracker.tick` takes turns until an operation suspends or nothing is left; nothing
bounds their number. An event that is running cannot be called again; a change of scene queues the
new start event below all that is running.
-/

namespace Cutscene

/-- A stack of frames and what the interpreter remembers. -/
structure Tracker where
  /-- The frames, the active one first. -/
  frames : List Frame
  voices : Voices
deriving Inhabited

/-- How a tick ended. -/
inductive TickStatus where
  /-- Nothing is left to run. -/
  | idle
  /-- An operation asked for more time. -/
  | suspended
deriving DecidableEq, Repr

namespace Tracker

/-- Nothing runs. -/
def empty : Tracker := ⟨[], .silent⟩

/-- Whether nothing runs. -/
def isIdle (t : Tracker) : Bool := t.frames.isEmpty

/-- Whether an event has a frame. -/
def isRunning (t : Tracker) (e : Event) : Bool := t.frames.any (·.event.id == e.id)

/-- The event of the active frame. -/
def active? (t : Tracker) : Option Event := t.frames.head?.map (·.event)

/-! ## Changes from outside -/

section

variable {σ : Type} (stage : Stage σ)

/-- Puts a frame for an event on top; tells whether it did. An event that is running is refused. -/
def call (e : Event) (t : Tracker) (s : σ) : Bool × Tracker × σ :=
  if t.isRunning e then
    (false, t,
      stage.say .error s!"event {e.displayName} is already running; recursive call ignored" s)
  else
    (true, { t with frames := .start e :: t.frames },
      stage.say .debug s!"event {e.displayName} called" s)

/-- Ends the active event. -/
def cancelCurrent (t : Tracker) (s : σ) : Tracker × σ :=
  match t.frames with
  | [] => (t, s)
  | f :: below =>
    ({ t with frames := below },
      stage.say .debug s!"event {f.event.displayName} cancelled at [{f.cursor}]" s)

/-- Ends every event. -/
def cancelAll (t : Tracker) (s : σ) : Tracker × σ :=
  ({ t with frames := [] },
    if t.frames.isEmpty then s
    else stage.say .debug s!"cancelling {t.frames.length} event frame(s)" s)

/-- Ends every event and starts another. -/
def interrupt (e : Event) (t : Tracker) (s : σ) : Tracker × σ :=
  let (t, s) := t.cancelAll stage s
  (t.call stage e s).2

/-- Puts a frame for an event below all others. -/
def enqueue (e : Event) (t : Tracker) : Tracker := { t with frames := t.frames ++ [.start e] }

/-- Puts a frame for an event below all others and reports it. -/
def queueFront (e : Event) (t : Tracker) (s : σ) : Tracker × σ :=
  (t.enqueue e, stage.say .debug s!"event {e.displayName} queued" s)

end

/-! ## Ticks -/

/-- The frames without those that have ended, a frame whose called event has ended being at its next
operation. -/
def settle : List Frame → List Frame
  | [] => []
  | f :: below =>
    let f := if f.awaitingChild then f.advance else f
    if f.isFinished then settle below else f :: below

/-- What one turn leads to. -/
inductive Turn (σ : Type) where
  /-- The tick is over. -/
  | ended (status : TickStatus) (t : Tracker) (s : σ)
  /-- The tick goes on. -/
  | more (t : Tracker) (s : σ)

section

variable {σ : Type} (stage : Stage σ)

/-- The frames below the active one, with one for an event that an execution has queued. -/
def queuedBelow (r : Effect σ) (below : List Frame) : List Frame :=
  match r.queued with
  | some e => below ++ [.start e]
  | none => below

/-- What an executed operation does to the stack: `f` is the active frame. -/
def follow (f : Frame) (below : List Frame) (r : Effect σ) : Turn σ :=
  let below := queuedBelow r below
  match r.flow with
  | .next => .more ⟨f.advance :: below, r.voices⟩ r.state
  | .suspend p => .ended .suspended ⟨f.suspend p :: below, r.voices⟩ r.state
  | .call e =>
    match call stage e ⟨f.await :: below, r.voices⟩ r.state with
    | (true, t, s) => .more t s
    | (false, _, s) => .more ⟨f.advance :: below, r.voices⟩ s
  | .cancel =>
    let (t, s) := cancelCurrent stage ⟨f :: below, r.voices⟩ r.state
    .more t s

/-- One turn: the stack is settled and the active operation is executed once. -/
def turn (now : Nat) (t : Tracker) (s : σ) : Turn σ :=
  match settle t.frames with
  | [] => .ended .idle { t with frames := [] } s
  | f :: below =>
    match f.operation? with
    | none => .more ⟨{ f with progress := .fresh } :: below, t.voices⟩ s
    | some op =>
      let entry := if f.justEntered then " (enter)" else ""
      let s := stage.say .trace
        s!"event {f.event.displayName} [{f.cursor}] {op.opcode}{entry}" s
      follow stage f below
        (execute stage f.event f.cursor op now f.justEntered f.progress t.voices s)

/-- The loop over the turns goes on with a tracker and a state, or has its result. -/
def Turn.next : Turn σ → (Tracker × σ) ⊕ (TickStatus × Tracker × σ)
  | .ended status t s => .inr (status, t, s)
  | .more t s => .inl (t, s)

/-- Runs operations until one suspends or nothing is left. -/
def tick (now : Nat) (t : Tracker) (s : σ) : TickStatus × Tracker × σ :=
  haveI : Nonempty (TickStatus × Tracker × σ) := ⟨.idle, t, s⟩
  repeatM (m := Id) (fun c => (turn stage now c.1 c.2).next) (t, s)

end

end Tracker

end Cutscene
