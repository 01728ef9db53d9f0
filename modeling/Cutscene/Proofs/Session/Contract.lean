import Cutscene.Session.Scripts
import Cutscene.Proofs.Thread.Relating

/-!
# What is relied on of an interpreter

Scripts act on the chronicle and on the list of events to be called only through the functions that
they are given for that: these set and unset flags, ask for events and log (`HostCall`). So what
scripts do can be told as the list of these calls. `Interpreter.Contract` is what is relied on of an
interpreter: that what is called is all that is done to what scripts act on when a script is loaded
or a thread is resumed, but for lines of the journal; that nothing at all is done to it when
something else is asked of the machine; and that a thread comes out of a resume as it should
(`Fate`).

If what a relation says of a list of calls it says of one call after the other, and it does not look
at the journal (`Reach.Follows`), then it holds of the start of scripts and of their ticks with what
they call (`SceneScripts.start_follows`, `SceneScripts.tick_follows`). A relation that does not know
what is called (`Reach.Compares`) holds as far as the calls keep to it (`HostCall.Within`). Any call
keeps to the order in which the list of events to be called at most grows (`Reach.Grows`).
-/

namespace Cutscene

/-! ## Calls -/

/-- A call of a function by which scripts change what they act on. -/
inductive HostCall where
  | setFlag (name : String)
  | unsetFlag (name : String)
  | callEvent (name : String)
  | logEvent (entry : String)
deriving DecidableEq

/-- What comes of a call. -/
def HostCall.act (r : Reach) : HostCall → Reach
  | setFlag name => { r with chronicle := (r.chronicle.setFlag name).2 }
  | unsetFlag name => { r with chronicle := (r.chronicle.unsetFlag name).2 }
  | callEvent name => { r with calls := r.calls.push name }
  | logEvent entry => { r with chronicle := r.chronicle.record entry }

/-- The same but for the journal. -/
structure Reach.Same (r r' : Reach) : Prop where
  flags : r'.chronicle.flags = r.chronicle.flags
  log : r'.chronicle.log = r.chronicle.log
  calls : r'.calls = r.calls

namespace Reach.Same

variable {r r' r'' : Reach}

theorem refl (r : Reach) : Same r r := ⟨rfl, rfl, rfl⟩

theorem trans (h : Same r r') (h' : Same r' r'') : Same r r'' :=
  ⟨h'.flags.trans h.flags, h'.log.trans h.log, h'.calls.trans h.calls⟩

/-- Calls do not look at the journal. -/
theorem act (h : Same r r') (x : HostCall) : Same (x.act r) (x.act r') := by
  obtain ⟨hflags, hlog, hcalls⟩ := h
  cases x with
  | setFlag name =>
      simp only [HostCall.act, Chronicle.setFlag, hflags]
      split
      · exact ⟨hflags, hlog, hcalls⟩
      · exact ⟨rfl, congrArg (Array.push · _) hlog, hcalls⟩
  | unsetFlag name =>
      simp only [HostCall.act, Chronicle.unsetFlag, hflags]
      split
      · exact ⟨rfl, congrArg (Array.push · _) hlog, hcalls⟩
      · exact ⟨hflags, hlog, hcalls⟩
  | callEvent name => exact ⟨hflags, hlog, congrArg (Array.push · name) hcalls⟩
  | logEvent entry => exact ⟨hflags, congrArg (Array.push · entry) hlog, hcalls⟩

end Reach.Same

/-- Some calls come to something, one after the other, and the journal does not count. -/
def Reach.Comes (r : Reach) (calls : List HostCall) (r' : Reach) : Prop :=
  (calls.foldl HostCall.act r).Same r'

namespace Reach.Comes

variable {r r' r'' : Reach} {calls calls' : List HostCall}

theorem of_same (h : r.Same r') : r.Comes [] r' := h

theorem single (r : Reach) (x : HostCall) : r.Comes [x] (x.act r) := .refl _

theorem trans (h : r.Comes calls r') (h' : r'.Comes calls' r'') :
    r.Comes (calls ++ calls') r'' := by
  have hall : ∀ {s s' : Reach}, s.Same s' →
      (calls'.foldl HostCall.act s).Same (calls'.foldl HostCall.act s') := by
    clear h h'
    induction calls' with
    | nil => exact id
    | cons x calls' ih => exact fun hs => ih (hs.act x)
  unfold Comes
  rw [List.foldl_append]
  exact (hall h).trans h'

end Reach.Comes

/-- A relation between what scripts act on that does not look at the journal. -/
structure Reach.Compares (R : Reach → Reach → Prop) : Prop where
  silent : ∀ {r r' : Reach}, r.Same r' → R r r'
  trans : ∀ {r r' r'' : Reach}, R r r' → R r' r'' → R r r''

/-- What comes of some calls is what comes of one after the other, and the journal does not
count. -/
structure Reach.Follows (R : List HostCall → Reach → Reach → Prop) : Prop where
  silent : ∀ {r r' : Reach}, r.Same r' → R [] r r'
  trans : ∀ {calls calls' : List HostCall} {r r' r'' : Reach},
    R calls r r' → R calls' r' r'' → R (calls ++ calls') r r''
  call : ∀ (x : HostCall) (r : Reach), R [x] r (x.act r)

/-- A call keeps to a relation, whenever it is made. -/
def HostCall.Within (R : Reach → Reach → Prop) (x : HostCall) : Prop := ∀ r, R r (x.act r)

namespace Reach.Compares

variable {R : Reach → Reach → Prop}

theorem refl (h : Compares R) (r : Reach) : R r r := h.silent (.refl r)

/-- What comes of calls that keep to a relation. -/
theorem follows (h : Compares R) :
    Follows fun calls r r' => (∀ x ∈ calls, x.Within R) → R r r' where
  silent hsame _ := h.silent hsame
  trans hfirst hrest hcalls :=
    h.trans (hfirst fun x hx => hcalls x (List.mem_append_left _ hx))
      (hrest fun x hx => hcalls x (List.mem_append_right _ hx))
  call x r hcalls := hcalls x (List.mem_singleton_self x) r

end Reach.Compares

namespace Reach.Follows

variable {R : List HostCall → Reach → Reach → Prop}

theorem compares (h : Follows R) : Compares (R []) where
  silent := h.silent
  trans hfirst hrest := h.trans hfirst hrest

/-- It holds of calls and whatever they come to. -/
theorem of_comes (h : Follows R) {calls : List HostCall} {r r' : Reach}
    (hcomes : r.Comes calls r') : R calls r r' := by
  induction calls generalizing r with
  | nil => exact h.silent hcomes
  | cons x calls ih => exact h.trans (h.call x r) (ih hcomes)

end Reach.Follows

/-- The list of events to be called has at most grown at its end. -/
def Reach.Grows (r r' : Reach) : Prop := r.calls.toList <+: r'.calls.toList

theorem Reach.compares_grows : Compares Grows where
  silent hsame := by simp only [Grows, hsame.calls, List.prefix_rfl]
  trans := List.IsPrefix.trans

/-- No call takes an event from the list or changes one. -/
theorem HostCall.grows (x : HostCall) : x.Within Reach.Grows := by
  intro r
  cases x with
  | callEvent name =>
      show r.calls.toList <+: (r.calls.push name).toList
      rw [Array.toList_push]
      exact List.prefix_append _ _
  | setFlag name | unsetFlag name | logEvent entry => exact List.prefix_rfl

/-! ## The contract -/

/-- How a thread comes out of a resume. -/
inductive Fate where
  /-- It has given way. -/
  | waits
  /-- It has called `abort`, or was found to be late. -/
  | stopped
  /-- An error that nothing has caught has ended it. -/
  | failed
  /-- Its function has returned values, each with its JSON form if it has one. -/
  | returned (values : List (Option Json))

namespace Fate

/-- The state that the context is left in. -/
def state : Fate → ContextState
  | waits => .suspended
  | stopped => .aborted
  | failed => .aborted
  | returned _ => .finished

/-- The values returned that have a JSON form. -/
def values : Fate → List Json
  | returned values => values.filterMap id
  | _ => []

theorem values_of_suspended (fate : Fate) (h : fate.state = .suspended) : fate.values = [] := by
  cases fate with
  | waits => rfl
  | stopped | failed | returned values => cases h

end Fate

open Interpreter (reach machine stateOf results)

/-- What is relied on of an interpreter, with an account of what its scripts do: what they call when
they are loaded and when they are resumed, and how a thread comes out of a resume. -/
class Interpreter.Contract [Interpreter] where
  loadCalls : Option Interpreter.Chunk → Interpreter.State → List HostCall
  resumeCalls : Interpreter.Context → Deadline → Interpreter.State → List HostCall
  fate : Interpreter.Context → Deadline → Interpreter.State → Fate
  /-- Scripts act on what is handed in. -/
  reach_fresh : ∀ r, reach (Interpreter.fresh r) = r
  reach_restore : ∀ memory r clock, reach (Interpreter.restore memory r clock) = r
  /-- What is called is all that a script does when it is loaded. -/
  load_comes : ∀ chunk s,
    (reach s).Comes (loadCalls chunk s) (reach (Interpreter.load chunk s).2)
  opening_same : ∀ s, (reach s).Same (reach (Interpreter.opening s))
  /-- What is called is all that a thread does when it is resumed. -/
  resume_comes : ∀ c d s,
    (reach s).Comes (resumeCalls c d s) (reach (machine.resume c d s).2.2)
  /-- Whatever else is asked of the machine is no more than a line in the journal. -/
  quiet : machine.Relates fun s s' => (reach s).Same (reach s')
  /-- A thread for a function of a script has its name and can be resumed. -/
  prepare_function : ∀ {name function s c s'},
    Interpreter.function? name s = some function →
      machine.prepare function none s = (.ok c, s') →
        machine.label c = name ∧ (stateOf c).isResumable = true
  label_resume : ∀ c d s, machine.label (machine.resume c d s).2.1 = machine.label c
  stateOf_resume : ∀ c d s, stateOf (machine.resume c d s).2.1 = (machine.resume c d s).1
  /-- A thread that can be resumed is left as its fate says. -/
  state_fate : ∀ c d s, (stateOf c).isResumable = true →
    (machine.resume c d s).1 = (fate c d s).state
  results_fate : ∀ c d s, (stateOf c).isResumable = true → (fate c d s).state = .finished →
    results (machine.resume c d s).2.1 = (fate c d s).values

section

variable [Interpreter] [Interpreter.Contract]

open Interpreter.Contract

namespace Reach

/-- Whatever is asked of the machine but to resume a thread is no more than a line in the journal. -/
theorem Compares.machine {R : Reach → Reach → Prop} (h : Compares R) :
    Interpreter.machine.Relates fun s s' => R (reach s) (reach s') where
  refl _ := h.refl _
  trans := h.trans
  note line s := h.silent (quiet.note line s)
  prepare f args s := h.silent (quiet.prepare f args s)
  abort c s := h.silent (quiet.abort c s)
  recycle c s := h.silent (quiet.recycle c s)
  takeSpawned s := h.silent (quiet.takeSpawned s)
  collectStep s := h.silent (quiet.collectStep s)
  collectFull s := h.silent (quiet.collectFull s)

end Reach

/-! ## The scripts of a scene -/

namespace SceneScripts

/-- What the script at a path calls when it is loaded. -/
def startHostCalls (sources : Sources) (path : String) (r : Reach) : List HostCall :=
  match sources.script path with
  | .error _ => []
  | .ok chunk => loadCalls chunk (Interpreter.fresh r)

/-- A tick of the scripts of a scene that ends, with what is called. -/
def TicksCalling (scripts : SceneScripts) (clock : Nat → Nat) (r : Reach) (calls : List HostCall)
    (q : Scheduler Interpreter.Context × Interpreter.State) : Prop :=
  Scheduler.RunsDoing machine resumeCalls 0 scripts.scheduler (scripts.state clock r) calls q

variable {R : Reach → Reach → Prop}

theorem reach_state (scripts : SceneScripts) (clock : Nat → Nat) (r : Reach) :
    reach (scripts.state clock r) = r := reach_restore _ r clock

theorem begin_within (h : Reach.Compares R) (path : String) (watchdog : Watchdog)
    (s : Interpreter.State) : R (reach s) (begin path watchdog s).2 := by
  unfold begin
  dsimp only
  split
  · rename_i function _
    have hcreated := h.machine.createThread function none true (Scheduler.empty watchdog) s
    split
    · exact hcreated
    · exact h.trans hcreated (h.silent ⟨rfl, rfl, rfl⟩)
  · exact h.silent ⟨rfl, rfl, rfl⟩

/-- Starting the scripts of a scene does no more than what is called. -/
theorem start_follows {R : List HostCall → Reach → Reach → Prop} (h : Reach.Follows R)
    (sources : Sources) (watchdog : Watchdog) (path : String) (r : Reach) :
    R (startHostCalls sources path r) r (start sources watchdog path r).2 := by
  unfold startHostCalls start
  cases sources.script path with
  | error e => exact h.compares.refl r
  | ok chunk =>
      have hload := h.of_comes (load_comes chunk (Interpreter.fresh r))
      rw [reach_fresh] at hload
      dsimp only
      split
      · rename_i s heq
        rwa [heq] at hload
      · rename_i s heq
        rw [heq] at hload
        have hopened := h.trans hload (h.silent (opening_same s))
        have hbegun := h.trans hopened (begin_within h.compares path watchdog _)
        rwa [List.append_nil, List.append_nil] at hbegun

theorem start_within (h : Reach.Compares R) {sources : Sources} {path : String} {r : Reach}
    (hcalls : ∀ x ∈ startHostCalls sources path r, x.Within R) (watchdog : Watchdog) :
    R r (start sources watchdog path r).2 :=
  start_follows h.follows sources watchdog path r hcalls

/-- A tick of the scripts does no more than what is called, and at most it logs what the entry
thread has returned. -/
theorem tick_follows {R : List HostCall → Reach → Reach → Prop} (h : Reach.Follows R)
    (hreturned : ∀ (r : Reach) (label values : String),
      R [] r { r with chronicle := r.chronicle.record s!"script.{label} returned {values}" })
    {scripts : SceneScripts} {clock : Nat → Nat} {r : Reach} {calls : List HostCall}
    {q : Scheduler Interpreter.Context × Interpreter.State}
    (hticks : scripts.TicksCalling clock r calls q) : R calls r (scripts.tick clock r).2 := by
  have hticked : R calls r (reach q.2) := by
    have hruns := Scheduler.RunsDoing.relates (R := fun ds s s' => R ds (reach s) (reach s'))
      h.compares.machine h.trans (fun c d s => h.of_comes (resume_comes c d s)) hticks
    rwa [reach_state] at hruns
  have hlogged : ∀ c, R calls r (logResults c (reach q.2)) := by
    intro c
    rw [← List.append_nil calls]
    refine h.trans hticked ?_
    unfold logResults
    dsimp only
    split
    · exact hreturned _ _ _
    · exact h.compares.refl _
  have htick : scripts.scheduler.tick machine (scripts.state clock r) = q :=
    hticks.runs.resumeFrom_eq
  unfold tick
  rw [htick]
  dsimp only
  split
  · exact hticked
  · split
    · exact hticked
    · split
      · exact hlogged _
      · exact hticked

theorem tick_within (h : Reach.Compares R)
    (hreturned : ∀ (r : Reach) (label values : String),
      R r { r with chronicle := r.chronicle.record s!"script.{label} returned {values}" })
    {scripts : SceneScripts} {clock : Nat → Nat} {r : Reach} {calls : List HostCall}
    {q : Scheduler Interpreter.Context × Interpreter.State}
    (hticks : scripts.TicksCalling clock r calls q) (hcalls : ∀ x ∈ calls, x.Within R) :
    R r (scripts.tick clock r).2 :=
  tick_follows h.follows (fun r label values _ => hreturned r label values) hticks hcalls

theorem close_within (h : Reach.Compares R) (scripts : SceneScripts) (r : Reach) :
    R r (scripts.close r) := by
  have hclosed := h.machine.abortAll scripts.scheduler (scripts.state (fun _ => 0) r)
  rwa [reach_state] at hclosed

end SceneScripts

/-- Starting the scripts of a scene may ask for events, and nothing that was asked for is lost. -/
theorem SceneScripts.calls_start (sources : Sources) (watchdog : Watchdog) (path : String)
    (r : Reach) : r.calls.toList <+: (start sources watchdog path r).2.calls.toList :=
  start_within Reach.compares_grows (fun x _ => x.grows) watchdog

/-- A tick of the scripts may ask for events, and nothing that was asked for is lost. -/
theorem SceneScripts.calls_tick {scripts : SceneScripts} {clock : Nat → Nat} {r : Reach}
    {q : Scheduler Interpreter.Context × Interpreter.State}
    (h : Scheduler.Runs machine 0 scripts.scheduler (scripts.state clock r) q) :
    r.calls.toList <+: (scripts.tick clock r).2.calls.toList := by
  obtain ⟨calls, hticks⟩ := h.exists_doing resumeCalls
  exact tick_within Reach.compares_grows (fun _ _ _ => List.prefix_rfl) hticks fun x _ => x.grows

end

end Cutscene
