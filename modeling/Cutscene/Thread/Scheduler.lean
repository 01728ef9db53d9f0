import Std.Data.ExtTreeMap
import Cutscene.Thread.Machine

/-!
# The script scheduler

Cooperative threads over a `Machine`. A tick resumes every live thread once, in the order of their
creation, each with a deadline of its own; threads that are asked for during the tick come after
those already there and are resumed in the same tick. A thread stays alive exactly as long as its
resumes end suspended. When it leaves, its context goes back to the machine, or, for a thread that
was created to be kept, is retained until it is taken.

A tick goes through the list of threads by position, while threads leave the list and new ones come
to its end: `turn` resumes the thread at a position and tells the next position. The tick is over
when there is no thread at the position; nothing bounds the number of its turns.
-/

namespace Cutscene

/-- A live thread. -/
structure Thread (κ : Type) where
  id : Nat
  label : String
  context : κ
  /-- Whether the context is retained when the thread leaves. -/
  keepAlive : Bool

/-- The live threads and the contexts retained. -/
structure Scheduler (κ : Type) where
  /-- The live threads, the oldest first. -/
  threads : List (Thread κ)
  /-- The contexts of threads that have left, until they are taken. -/
  retained : Std.ExtTreeMap Nat κ
  /-- The number of the next thread. -/
  nextId : Nat
  watchdog : Watchdog

namespace Scheduler

variable {σ φ α κ : Type}

/-- No threads. -/
def empty (watchdog : Watchdog) : Scheduler κ := ⟨[], ∅, 1, watchdog⟩

/-- How many threads are alive. -/
def size (sch : Scheduler κ) : Nat := sch.threads.length

/-- Whether a thread is alive. -/
def isAlive (sch : Scheduler κ) (id : Nat) : Bool := sch.threads.any (·.id == id)

/-- How many contexts are retained. -/
def retainedCount (sch : Scheduler κ) : Nat := sch.retained.size

/-- The threads as they are listed to the user. -/
def labels (sch : Scheduler κ) : List String :=
  sch.threads.map fun t => s!"#{t.id} {t.label}"

/-- Takes a retained context. -/
def takeRetained (sch : Scheduler κ) (id : Nat) : Option κ × Scheduler κ :=
  (sch.retained[id]?, { sch with retained := sch.retained.erase id })

variable (m : Machine σ φ α κ)

/-- Creates a thread behind all others. Nothing runs before the next tick. -/
def createThread (function : φ) (args : Option α) (keepAlive : Bool) (sch : Scheduler κ) (s : σ) :
    Option Nat × Scheduler κ × σ :=
  match m.prepare function args s with
  | (.error e, s) => (none, sch, m.note ⟨.error, s!"create_thread failed: {e.message}"⟩ s)
  | (.ok context, s) =>
    let id := sch.nextId
    let label := m.label context
    (some id,
      { sch with threads := sch.threads ++ [⟨id, label, context, keepAlive⟩], nextId := id + 1 },
      m.note ⟨.debug, s!"script thread #{id} ({label}) created"⟩ s)

/-- Creates the threads that scripts asked for. -/
def createSpawned (requests : List (SpawnRequest φ α)) (sch : Scheduler κ) (s : σ) :
    Scheduler κ × σ :=
  requests.foldl (fun (sch, s) r => (createThread m r.function r.args false sch s).2) (sch, s)

/-- Resumes a thread: the state in which the resume ended, the thread after it, and the threads that
scripts have asked for. -/
def resume (watchdog : Watchdog) (t : Thread κ) (s : σ) :
    ContextState × Thread κ × List (SpawnRequest φ α) × σ :=
  let (state, context, s) := m.resume t.context (watchdog.arm (m.now s)) s
  let s := m.note ⟨.trace, s!"script thread #{t.id} -> {state.label}"⟩ s
  let (requests, s) := m.takeSpawned s
  (state, { t with context }, requests, s)

/-- What becomes of a thread that leaves. -/
def retire (t : Thread κ) (state : ContextState) (sch : Scheduler κ) (s : σ) : Scheduler κ × σ :=
  let s := if state = .finished
    then m.note ⟨.debug, s!"script thread #{t.id} ({t.label}) finished"⟩ s
    else m.note ⟨.warn, s!"script thread #{t.id} ({t.label}) removed while {state.label}"⟩ s
  if t.keepAlive then ({ sch with retained := sch.retained.insert t.id t.context }, s)
  else (sch, m.recycle t.context s)

/-- The scheduler with another thread at a position. -/
def putAt (index : Nat) (t : Thread κ) (sch : Scheduler κ) : Scheduler κ :=
  { sch with threads := sch.threads.set index t }

/-- The scheduler without the thread at a position; the one behind it comes to its position. -/
def removeAt (index : Nat) (sch : Scheduler κ) : Scheduler κ :=
  { sch with threads := sch.threads.eraseIdx index }

/-- Resumes the thread at a position, if there is one, and tells the position to go on with. New
threads are put behind all others. -/
def turn (index : Nat) (sch : Scheduler κ) (s : σ) : Option (Nat × Scheduler κ × σ) :=
  match sch.threads[index]? with
  | none => none
  | some t =>
    let (state, t, requests, s) := resume m sch.watchdog t s
    let (sch, s) := createSpawned m requests (sch.putAt index t) s
    if state = .suspended then some (index + 1, sch, m.collectStep s)
    else
      let (sch, s) := retire m t state (sch.removeAt index) s
      some (index, sch, m.collectStep s)

/-- Resumes the threads from a position on, until none is left. -/
def resumeFrom (index : Nat) (sch : Scheduler κ) (s : σ) : Scheduler κ × σ :=
  haveI : Nonempty (Scheduler κ × σ) := ⟨sch, s⟩
  repeatM (m := Id)
    (fun c => match turn m c.1 c.2.1 c.2.2 with
      | some next => .inl next
      | none => .inr c.2)
    (index, sch, s)

/-- Resumes every live thread once; how many are left is the `size` of the scheduler after it. -/
def tick (sch : Scheduler κ) (s : σ) : Scheduler κ × σ := resumeFrom m 0 sch s

/-- Ends a thread and gives its context back to the machine. -/
def discard (s : σ) (t : Thread κ) : σ :=
  let (context, s) := m.abort t.context s
  m.recycle context s

/-- Ends every thread. -/
def abortAll (sch : Scheduler κ) (s : σ) : Scheduler κ × σ :=
  let s := if sch.threads.isEmpty then s
    else m.note ⟨.debug, s!"aborting {sch.threads.length} script thread(s)"⟩ s
  ({ sch with threads := [] }, m.collectFull (sch.threads.foldl (discard m) s))

/-- What happens when the scheduler is given up: live threads are ended. -/
def close (sch : Scheduler κ) (s : σ) : Scheduler κ × σ :=
  if sch.threads.isEmpty then (sch, s) else sch.abortAll m s

end Scheduler

end Cutscene
