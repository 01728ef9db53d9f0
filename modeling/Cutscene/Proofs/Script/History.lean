import Cutscene.Proofs.Script.Conduct
import Cutscene.Proofs.Session.Lives

/-!
# The history of a runtime

A runtime is the machine of scripts with its scheduler. `Move` is what can happen to it from the
outside: the host creates threads, takes turns of a tick, publishes values and loads further
scripts, and what scripts act on changes between the turns. The moves are actions of `Custody`, so
all that is known of schedulers holds of runtimes.

`history` is all that was done to what scripts have in common, over any moves, and the marks at the
end are those that it leaves (`leads_history`). The scripts of a scene are at any time of its life
those of a runtime after some moves (`SceneScripts.Lives.exists_runtime`).
-/

namespace Cutscene

namespace Script

/-! ## Moves -/

/-- What can happen to a runtime. -/
inductive Move where
  | create (e : Entry) (args : Option Argument) (keepAlive : Bool)
  /-- A turn of a tick, at a position. -/
  | turn (index : Nat)
  | abortAll
  | take (id : Nat)
  /-- The host puts a value under a name. -/
  | publish (name : String) (v : Value)
  /-- The host loads a script. -/
  | load (c : Chunk)
  /-- What scripts act on is changed by others. -/
  | meanwhile (world : State)

/-- What others have changed, with the memory of the scripts. -/
def State.reached (world s : State) : State := { world with memory := s.memory }

/-- A move as an action with a scheduler. -/
def Move.action : Move → Custody.Action State Entry Argument
  | .create e args keepAlive => .create e args keepAlive
  | .turn index => .turn index
  | .abortAll => .abortAll
  | .take id => .take id
  | .publish name v => .elsewhere (State.publish name v)
  | .load c => .elsewhere fun s => (c.load s).2
  | .meanwhile world => .elsewhere (State.reached world)

/-- Scripts that have not begun, in a world where nothing has happened. -/
def freshState : State := ⟨.initial Builtin.standard, .empty, #[], 0, .still⟩

/-- A runtime. -/
abbrev Runtime := Custody State Context

namespace Runtime

/-- A runtime after a move. -/
def move (o : Runtime) (m : Move) : Runtime := Custody.act machine o m.action

/-- A runtime after moves. -/
def moves (o : Runtime) (ms : List Move) : Runtime := ms.foldl move o

/-- A new runtime after a script has been loaded. -/
def opening (watchdog : Watchdog) (s : State) : Runtime := Custody.start watchdog s.opening

/-- What is done on a move. -/
def deeds (o : Runtime) : Move → List Deed
  | .turn index =>
    match o.scheduler.threads[index]? with
    | some t =>
      resumeDeeds t.context (o.scheduler.watchdog.arm o.state.time) o.state ++ [.collected]
    | none => []
  | .publish name v => [.shared name v]
  | .load c => c.deeds o.state
  | _ => []

/-- What is done on moves. -/
def history (o : Runtime) : List Move → List Deed
  | [] => []
  | m :: ms => o.deeds m ++ (o.move m).history ms

theorem moves_opening (watchdog : Watchdog) (s : State) (ms : List Move) :
    (opening watchdog s).moves ms =
      Custody.run machine watchdog s.opening (ms.map Move.action) := by
  rw [Custody.run, List.foldl_map]
  rfl

end Runtime

/-! ## What the scheduler leaves alone -/

theorem marks_entry (e : Entry) (s : State) : (s.entry e).2.marks = s.marks := by
  unfold State.entry
  split
  · dsimp only
    split <;> rfl
  · rfl

theorem marks_prepare (e : Entry) (arg : Option Argument) (s : State) :
    (prepare e arg s).2.marks = s.marks := by
  have hentry := marks_entry e s
  have hargument : ∀ (a : Argument) (s : State), (s.argument a).2.marks = s.marks := by
    intro a s
    cases a <;> rfl
  unfold prepare
  split
  · rename_i error s' heq
    rwa [heq] at hentry
  · rename_i label f s' heq
    rw [heq] at hentry
    split
    · exact hentry
    · exact (hargument _ s').trans hentry

theorem marks_createThread (e : Entry) (args : Option Argument) (keepAlive : Bool)
    (sch : Scheduler Context) (s : State) :
    (Scheduler.createThread machine e args keepAlive sch s).2.2.marks = s.marks := by
  have hprepare : (machine.prepare e args s).2.marks = s.marks := marks_prepare e args s
  unfold Scheduler.createThread
  split
  · rename_i error s' heq
    rwa [heq] at hprepare
  · rename_i c s' heq
    rwa [heq] at hprepare

theorem marks_createSpawned (requests : List Request) (sch : Scheduler Context) (s : State) :
    (Scheduler.createSpawned machine requests sch s).2.marks = s.marks := by
  induction requests generalizing sch s with
  | nil => rfl
  | cons r requests ih => exact (ih _ _).trans (marks_createThread ..)

theorem marks_retire (t : Thread Context) (state : ContextState) (sch : Scheduler Context)
    (s : State) : (Scheduler.retire machine t state sch s).2.marks = s.marks := by
  unfold Scheduler.retire
  dsimp only
  split
  · split <;> rfl
  · split <;> rfl

theorem marks_abortAll (sch : Scheduler Context) (s : State) :
    (Scheduler.abortAll machine sch s).2.marks = s.marks := by
  have hdiscard : ∀ (t : Thread Context) (s : State),
      (Scheduler.discard machine s t).marks = s.marks := by
    intro t s
    show (abort t.context s).2.marks = s.marks
    unfold abort
    dsimp only
    split <;> rfl
  have hall : ∀ (ts : List (Thread Context)) (s : State),
      (ts.foldl (Scheduler.discard machine) s).marks = s.marks := by
    intro ts
    induction ts with
    | nil => exact fun s => rfl
    | cons t ts ih => exact fun s => (ih _).trans (hdiscard t s)
  refine (hall sch.threads _).trans ?_
  split <;> rfl

theorem threads_retire (t : Thread Context) (state : ContextState) (sch : Scheduler Context)
    (s : State) : (Scheduler.retire machine t state sch s).1.threads = sch.threads := by
  unfold Scheduler.retire
  dsimp only
  split <;> rfl

/-- A turn resumes the thread at its position and creates those that scripts have asked for; the
thread stays in front of the position or leaves. -/
theorem exists_turn {index : Nat} {sch : Scheduler Context} {t : Thread Context}
    (ht : sch.threads[index]? = some t) (s : State) :
    let r := Scheduler.resume machine sch.watchdog t s
    let c := Scheduler.createSpawned machine r.2.2.1 (sch.putAt index r.2.1) r.2.2.2
    ∃ next, Scheduler.turn machine index sch s = some next ∧
      next.1 = (if r.1 = .suspended then index + 1 else index) ∧
      next.2.1.threads =
        (if r.1 = .suspended then c.1.threads else c.1.threads.eraseIdx index) ∧
      next.2.2.marks = c.2.marks := by
  intro r c
  unfold Scheduler.turn
  rw [ht]
  dsimp only
  split
  · exact ⟨_, rfl, rfl, rfl, rfl⟩
  · refine ⟨_, rfl, rfl, ?_, marks_retire ..⟩
    exact threads_retire r.2.1 r.1 (c.1.removeAt index) c.2

theorem leads_turn {index : Nat} {sch : Scheduler Context} {s : State} {t : Thread Context}
    {next : Nat × Scheduler Context × State} (ht : sch.threads[index]? = some t)
    (h : Scheduler.turn machine index sch s = some next) :
    s.marks.Leads (resumeDeeds t.context (sch.watchdog.arm s.time) s ++ [.collected])
      next.2.2.marks := by
  have hcollected : ∀ m : Marks, m.Leads [.collected] (m.after .collected) := fun m =>
    .single trivial
  obtain ⟨next', hturn, -, -, hmarks⟩ := exists_turn ht s
  obtain rfl := Option.some.inj (h.symm.trans hturn)
  rw [hmarks, marks_createSpawned]
  exact (leads_resume t.context (sch.watchdog.arm s.time) s).append (hcollected _)

/-! ## Histories -/

namespace Runtime

/-- What a move leaves behind is what its deeds say. -/
theorem leads_move (o : Runtime) (m : Move) :
    o.state.marks.Leads (o.deeds m) (o.move m).state.marks := by
  cases m with
  | create e args keepAlive => exact .of_eq (marks_createThread ..)
  | turn index =>
      cases hthread : o.scheduler.threads[index]? with
      | none =>
          have hturn : Scheduler.turn machine index o.scheduler o.state = none := by
            rw [Scheduler.turn, hthread]
          simp only [deeds, hthread, move, Move.action, Custody.act, hturn]
          exact .refl _
      | some t =>
          obtain ⟨next, hturn, -⟩ := exists_turn hthread o.state
          simp only [deeds, hthread, move, Move.action, Custody.act, hturn]
          exact leads_turn hthread hturn
  | abortAll => exact .of_eq (marks_abortAll ..)
  | take id => exact .refl _
  | publish name v => exact .single trivial
  | load c => exact (performs_load c o.state).leads
  | meanwhile world => exact .refl _

/-- What moves leave behind is what their history says. -/
theorem leads_history (o : Runtime) (ms : List Move) :
    o.state.marks.Leads (o.history ms) (o.moves ms).state.marks := by
  induction ms generalizing o with
  | nil => exact .refl _
  | cons m ms ih => exact (o.leads_move m).append (ih (o.move m))

end Runtime

end Script

/-! ## The scripts of a scene -/

/-- What happens to the scripts of a scene, as a move. -/
def Script.Move.ofIncident : SceneScripts.Incident → Script.Move
  | .begins function => .create function none true
  | .meets clock r => .meanwhile (r.withMemory default (.system clock 0))
  | .turn index => .turn index
  | .leaves id => .take id

theorem Script.Move.action_ofIncident (incident : SceneScripts.Incident) :
    (ofIncident incident).action = incident.action := by
  cases incident <;> rfl

/-- The scripts of a scene are always those of a runtime that has taken over the machine after the
script was loaded, and on which there have been some moves since. -/
theorem SceneScripts.Lives.exists_runtime {sources : Sources} {watchdog : Watchdog} {path : String}
    {r : Reach} {scripts : SceneScripts} (h : Lives sources watchdog path r scripts) :
    ∃ c ms, sources.script path = .ok (some c) ∧
      Behind scripts ((Script.Runtime.opening watchdog
        (c.load (r.withMemory (.initial Script.Builtin.standard))).2).moves ms) := by
  obtain ⟨chunk, s, incidents, hchunk, hload, hbehind⟩ := h.exists_behind
  cases chunk with
  | none => cases hload
  | some c =>
      have hload : c.load (r.withMemory (.initial Script.Builtin.standard)) = (true, s) := hload
      refine ⟨c, incidents.map Script.Move.ofIncident, hchunk, ?_⟩
      rw [hload, Script.Runtime.moves_opening, List.map_map]
      simp only [Function.comp_def, Script.Move.action_ofIncident]
      exact hbehind

end Cutscene
