import Cutscene.Session.Scripts
import Cutscene.Proofs.Thread.Turns

/-!
# The life of the scripts of a scene

The scripts of a scene are started and then have ticks, each with what it finds (`Lives`). Seen from
their machine, this is a history of actions with one scheduler: an entry thread is created, turns
are taken, and what the entry thread has left is taken; in between the machine goes on from what it
has kept (`Incident`). So what is known of schedulers after any actions is known of the scripts of a
scene (`Lives.exists_behind`), for one that their threads have rising numbers (`Lives.rising`).
-/

namespace Cutscene

namespace SceneScripts

variable [Interpreter]

open Interpreter (machine)

/-- The scripts of a scene at some time of its life: it has been started, and has had some ticks
that have ended. -/
inductive Lives (sources : Sources) (watchdog : Watchdog) (path : String) (r : Reach) :
    SceneScripts → Prop
  | start {scripts : SceneScripts} {r' : Reach}
      (h : start sources watchdog path r = (.ok scripts, r')) :
      Lives sources watchdog path r scripts
  | tick {scripts : SceneScripts} (h : Lives sources watchdog path r scripts) (clock : Nat → Nat)
      (reach : Reach) {q : Scheduler Interpreter.Context × Interpreter.State}
      (hruns : Scheduler.Runs machine 0 scripts.scheduler (scripts.state clock reach) q) :
      Lives sources watchdog path r (scripts.tick clock reach).1

/-- What happens to the scripts of a scene. -/
inductive Incident where
  /-- The entry thread is created. -/
  | begins (function : Interpreter.Function)
  /-- They go on from what they have kept, with what they find. -/
  | meets (clock : Nat → Nat) (r : Reach)
  /-- A turn of a tick, at a position. -/
  | turn (index : Nat)
  /-- What the entry thread has left is taken. -/
  | leaves (id : Nat)

/-- What happens, as an action with a scheduler. -/
def Incident.action : Incident →
    Custody.Action Interpreter.State Interpreter.Function Interpreter.Argument
  | begins function => .create function none true
  | meets clock r => .elsewhere fun s => Interpreter.restore (Interpreter.memory s) r clock
  | turn index => .turn index
  | leaves id => .take id

/-- The scripts of a scene are those of a machine with its scheduler. -/
structure Behind (scripts : SceneScripts)
    (o : Custody Interpreter.State Interpreter.Context) : Prop where
  scheduler : o.scheduler = scripts.scheduler
  memory : Interpreter.memory o.state = scripts.memory

/-- A machine and its scheduler after what has happened since they were opened. -/
def after (watchdog : Watchdog) (s : Interpreter.State) (incidents : List Incident) :
    Custody Interpreter.State Interpreter.Context :=
  Custody.run machine watchdog s (incidents.map Incident.action)

theorem after_append (watchdog : Watchdog) (s : Interpreter.State)
    (incidents incidents' : List Incident) : after watchdog s (incidents ++ incidents') =
      (incidents'.map Incident.action).foldl (Custody.act machine)
        (after watchdog s incidents) := by
  rw [after, Custody.run, List.map_append, List.foldl_append]
  rfl

theorem behind_begin (path : String) (watchdog : Watchdog) (s : Interpreter.State) :
    ∃ incidents, Behind (begin path watchdog s).1 (after watchdog s incidents) := by
  unfold begin
  dsimp only
  split
  · rename_i function _
    exact ⟨[.begins function], rfl, rfl⟩
  · exact ⟨[], rfl, rfl⟩

/-- A tick of the scripts of a scene is one turn after the other, with what it finds. -/
theorem behind_tick {scripts : SceneScripts} {watchdog : Watchdog} {s : Interpreter.State}
    {incidents : List Incident} (ho : Behind scripts (after watchdog s incidents))
    {clock : Nat → Nat} {r : Reach} {q : Scheduler Interpreter.Context × Interpreter.State}
    (h : Scheduler.Runs machine 0 scripts.scheduler (scripts.state clock r) q) :
    ∃ incidents', Behind (scripts.tick clock r).1 (after watchdog s incidents') := by
  obtain ⟨indices, hturns⟩ := Custody.exists_turns_of_runs h (after watchdog s incidents).taken
  have hticked : scripts.scheduler.tick machine (scripts.state clock r) = q := h.resumeFrom_eq
  have hafter : after watchdog s (incidents ++ .meets clock r :: indices.map .turn) =
      ⟨q.1, q.2, (after watchdog s incidents).taken⟩ := by
    have hmet : Custody.act machine (after watchdog s incidents)
        (Incident.action (.meets clock r)) =
          ⟨scripts.scheduler, scripts.state clock r, (after watchdog s incidents).taken⟩ := by
      rw [SceneScripts.state, ← ho.memory, ← ho.scheduler]
      rfl
    rw [after_append, List.map_cons, List.foldl_cons, hmet, ← hturns, List.map_map]
    rfl
  have hstays : ∀ entry, ∃ incidents',
      Behind (settle entry q.1 q.2).1 (after watchdog s incidents') := fun entry =>
    ⟨_, by rw [hafter]; exact ⟨rfl, rfl⟩⟩
  unfold tick
  rw [hticked]
  dsimp only
  split
  · exact hstays _
  · rename_i id hentry
    split
    · exact hstays _
    · -- whoever takes what the entry thread has left goes on without it
      refine ⟨(incidents ++ .meets clock r :: indices.map .turn) ++ [.leaves id], ?_⟩
      rw [after_append, hafter]
      split
      · rename_i c sch heq
        exact ⟨congrArg (·.2) heq, rfl⟩
      · rename_i sch heq
        exact ⟨congrArg (·.2) heq, rfl⟩

namespace Lives

variable {sources : Sources} {watchdog : Watchdog} {path : String} {r : Reach}
  {scripts : SceneScripts}

/-- The scripts of a scene are always those of a machine that was opened after the script had been
loaded, and to which some things have happened since. -/
theorem exists_behind (h : Lives sources watchdog path r scripts) :
    ∃ chunk s incidents, sources.script path = .ok chunk ∧
      Interpreter.load chunk (Interpreter.fresh r) = (true, s) ∧
        Behind scripts (after watchdog (Interpreter.opening s) incidents) := by
  induction h with
  | start h =>
      unfold SceneScripts.start at h
      split at h
      · cases h
      · rename_i chunk hchunk
        split at h
        · cases h
        · rename_i s hload
          obtain ⟨incidents, hbehind⟩ := behind_begin path watchdog (Interpreter.opening s)
          obtain rfl := Except.ok.inj (Prod.mk.inj h).1
          exact ⟨chunk, s, incidents, hchunk, hload, hbehind⟩
  | tick _ clock reach hruns ih =>
      obtain ⟨chunk, s, incidents, hchunk, hload, hbehind⟩ := ih
      obtain ⟨incidents', hbehind'⟩ := behind_tick hbehind hruns
      exact ⟨chunk, s, incidents', hchunk, hload, hbehind'⟩

/-- The threads of the scripts have rising numbers. -/
theorem rising (h : Lives sources watchdog path r scripts) (s : Interpreter.State) :
    Scheduler.Rising (0, scripts.scheduler, s) := by
  obtain ⟨chunk, s', incidents, -, -, hbehind⟩ := h.exists_behind
  have hrising := Scheduler.rising_run machine watchdog (Interpreter.opening s')
    (incidents.map Incident.action)
  rw [← hbehind.scheduler]
  exact ⟨hrising.ids, hrising.lt⟩

end Lives

end SceneScripts

end Cutscene
