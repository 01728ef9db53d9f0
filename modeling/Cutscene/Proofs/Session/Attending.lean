import Cutscene.Proofs.Session.Arrivals
import Cutscene.Proofs.Session.Contract
import Cutscene.Proofs.Thread.Visits

/-!
# Sessions whose scripts are watched

What a session does with its scripts does not show in its state: a thread is no more than its
context, and a request is gone when it has been answered. `Attended` is a session with somebody
watching. It gives every thread of its scripts a number, the same one never again, and writes down
what is done: `Deed`.

Watching changes nothing (`session_frame`). The threads that are watched are those of the session
(`Attended.Attends`), because a scheduler does the same over a watched machine.
-/

namespace Cutscene

/-- What is written down of the scripts of a session. -/
inductive Deed where
  /-- Events have entered a scene, and its scripts replace those of the scene before. -/
  | entered
  | created (thread : ℕ)
  | resumed (thread : ℕ)
  /-- Scripts have asked for an event to be called. -/
  | asked (name : String)
  /-- The event that the library has under a name is called, if it has one. -/
  | tried (name : String) (event? : Option Event)

namespace Deed

/-- What is written down of a request to the machine. -/
def ofRequest? {φ α : Type} : Machine.Request φ α → Option Deed
  | .prepare _ _ (some thread) => some (.created thread)
  | .resume thread _ _ _ => some (.resumed thread)
  | _ => none

/-- The name that was asked for. -/
def asked? : Deed → Option String
  | asked name => some name
  | _ => none

/-- The attempt to call an event. -/
def tried? : Deed → Option (String × Option Event)
  | tried name event? => some (name, event?)
  | _ => none

/-- The names that were asked for, in order. -/
def asks (ds : List Deed) : List String := ds.filterMap asked?

/-- The attempts to call events, in order. -/
def tries (ds : List Deed) : List (String × Option Event) := ds.filterMap tried?

end Deed

open Interpreter (machine)

namespace SceneScripts

/-- The threads without what the entry thread has left, if it has ended. -/
def dropEntry {κ : Type} (entry : Option ℕ) (sch : Scheduler κ) : Scheduler κ :=
  match entry with
  | none => sch
  | some id => if sch.isAlive id then sch else (sch.takeRetained id).2

theorem dropEntry_bare {κ : Type} (entry : Option ℕ) (sch : Scheduler (Numbered κ)) :
    dropEntry entry sch.bare = (dropEntry entry sch).bare := by
  cases entry with
  | none => rfl
  | some id =>
      have halive : sch.bare.isAlive id = sch.isAlive id := List.any_map
      unfold dropEntry
      dsimp only
      rw [halive, Scheduler.takeRetained_bare]
      split <;> rfl

theorem threads_dropEntry {κ : Type} (entry : Option ℕ) (sch : Scheduler κ) :
    (dropEntry entry sch).threads = sch.threads := by
  unfold dropEntry
  split
  · rfl
  · split <;> rfl

variable [Interpreter]

/-- The state in which the threads of a script are created, if it can be loaded. -/
def loaded? (sources : Sources) (path : String) (r : Reach) : Option Interpreter.State :=
  match sources.script path with
  | .error _ => none
  | .ok chunk =>
    match Interpreter.load chunk (Interpreter.fresh r) with
    | (false, _) => none
    | (true, s) => some (Interpreter.opening s)

/-- The creation of the entry thread, watched. -/
def watchedBegin (watchdog : Watchdog)
    (w : Watched Interpreter.State Interpreter.Function Interpreter.Argument) :
    Scheduler (Numbered Interpreter.Context) ×
      Watched Interpreter.State Interpreter.Function Interpreter.Argument :=
  match Interpreter.function? entryName w.state with
  | some function =>
    (Scheduler.createThread machine.watched function none true (.empty watchdog) w).2
  | none => (.empty watchdog, w)

theorem scheduler_tick (scripts : SceneScripts) (clock : ℕ → ℕ) (r : Reach) :
    (scripts.tick clock r).1.scheduler = dropEntry scripts.entry
      (scripts.scheduler.tick machine (scripts.state clock r)).1 := by
  unfold tick
  rcases scripts.scheduler.tick machine (scripts.state clock r) with ⟨sch, s⟩
  cases scripts.entry with
  | none => rfl
  | some id =>
      dsimp only [dropEntry]
      split
      · rfl
      · split
        · rename_i heq
          exact (congrArg Prod.snd heq).symm
        · rename_i heq
          exact (congrArg Prod.snd heq).symm

theorem scheduler_begin (path : String) (watchdog : Watchdog)
    (w : Watched Interpreter.State Interpreter.Function Interpreter.Argument) :
    (begin path watchdog w.state).1.scheduler = (watchedBegin watchdog w).1.bare := by
  have hempty : (.empty watchdog : Scheduler (Numbered Interpreter.Context)).bare =
      .empty watchdog := by
    have hretained : (∅ : Std.ExtTreeMap ℕ (Numbered Interpreter.Context)).map
        (fun _ c => c.context) = ∅ := by
      ext id c
      simp
    rw [Scheduler.bare, Scheduler.empty, hretained]
    rfl
  unfold begin watchedBegin
  cases Interpreter.function? entryName w.state with
  | none => exact hempty.symm
  | some function =>
      have hcreated := Scheduler.createThread_watched machine (.empty watchdog) w function none true
      rw [hempty] at hcreated
      dsimp only
      rw [hcreated]
      rfl

/-- Scripts that can be loaded begin, and the others do not start. -/
theorem start_cases (sources : Sources) (watchdog : Watchdog) (path : String) (r : Reach) :
    (∃ s, loaded? sources path r = some s ∧ start sources watchdog path r =
      (.ok (begin path watchdog s).1, (begin path watchdog s).2)) ∨
    (loaded? sources path r = none ∧
      ∃ e r', start sources watchdog path r = (.error e, r')) := by
  unfold loaded? start
  cases sources.script path with
  | error e => exact .inr ⟨rfl, _, _, rfl⟩
  | ok chunk =>
      dsimp only
      rcases Interpreter.load chunk (Interpreter.fresh r) with ⟨_ | _, s⟩
      · exact .inr ⟨rfl, _, _, rfl⟩
      · exact .inl ⟨_, rfl, rfl⟩

end SceneScripts

namespace Session

variable [Interpreter]

section

variable (sources : Sources)

/-- The state in which the scripts of a session run in the next tick. -/
def scriptState (s : Session) (scripts : SceneScripts) : Interpreter.State :=
  scripts.state (sources.clock s.frames) s.reach

/-- The tick of the scripts returns. -/
def ScriptsReturn (s : Session) : Prop :=
  ∀ scripts ∈ s.scripts, ∃ q,
    Scheduler.Runs machine 0 scripts.scheduler (s.scriptState sources scripts) q

/-- A session in the middle of a frame, whose events have left something. -/
def afterEvents (s : Session) (r : TickStatus × Tracker × World) : Session :=
  closeIdleBox r.1 { beginFrame sources s with tracker := r.2.1, world := r.2.2 }

/-- What the player does leaves alone the scripts, what they want to be called and how many frames
have been played. -/
structure SameScripts (s s' : Session) : Prop where
  scripts : s'.scripts = s.scripts
  calls : s'.calls = s.calls
  frames : s'.frames = s.frames

theorem sameScripts_beginFrame (s : Session) : SameScripts s (beginFrame sources s) := by
  have hwalk : ∀ p (s : Session), SameScripts s (walk sources p s) := by
    intro p s
    unfold walk
    split
    · exact ⟨rfl, rfl, rfl⟩
    · split <;> exact ⟨rfl, rfl, rfl⟩
  have hpush : ∀ s : Session, SameScripts s (pushButton sources s) := by
    intro s
    unfold pushButton
    split
    · split <;> exact ⟨rfl, rfl, rfl⟩
    · exact ⟨rfl, rfl, rfl⟩
  have htake : SameScripts s (takeWalk sources s) := by
    unfold takeWalk
    split
    · rename_i p hp
      obtain ⟨hscripts, hcalls, hframes⟩ := hwalk p { s with pendingWalk := none }
      exact ⟨hscripts, hcalls, hframes⟩
    · exact ⟨rfl, rfl, rfl⟩
  obtain ⟨hscripts, hcalls, hframes⟩ := hpush (takeWalk sources s)
  exact ⟨hscripts.trans htake.scripts, hcalls.trans htake.calls, hframes.trans htake.frames⟩

theorem sameScripts_afterEvents (s : Session) (r : TickStatus × Tracker × World) :
    SameScripts s (afterEvents sources s r) := by
  obtain ⟨hscripts, hcalls, hframes⟩ := sameScripts_beginFrame sources s
  unfold afterEvents closeIdleBox
  split <;> exact ⟨hscripts, hcalls, hframes⟩

/-- A session in the middle of a frame, when the scripts are to run. -/
def beforeScripts (s : Session) (r : TickStatus × Tracker × World) : Session :=
  followScene sources (afterEvents sources s r)

/-- The next frame returns: its tick of the events does, and its tick of the scripts. -/
structure FrameReturns (s : Session) (r : TickStatus × Tracker × World) : Prop where
  events : Returns sources s r
  scripts : (beforeScripts sources s r).ScriptsReturn sources

/-- An attempt to call the event that was found under a name. -/
def attempt (s : Session) (t : String × Option Event) : Session :=
  match t.2 with
  | some e => call sources e s
  | none => s.note ⟨.error, s!"call_event: event '{t.1}' not found"⟩

/-- A call that is answered is one attempt, with the library of the moment. -/
theorem answerCall_eq (s : Session) (name : String) :
    answerCall sources s name = attempt sources s (name, s.world.library.find? name) := rfl

/-- What scripts want to be called, with what the library has for it. -/
def attempts (s : Session) : List (String × Option Event) :=
  s.calls.toList.map fun name => (name, s.world.library.find? name)

theorem Beside.attempt (s : Session) (t : String × Option Event) :
    Beside s (s.attempt sources t) := by
  unfold Session.attempt
  split
  · exact .call sources _ s
  · exact .of_world rfl rfl

/-- Attempts change neither the scripts nor what they want to be called. -/
theorem foldl_attempt_keeps (ts : List (String × Option Event)) (s : Session) :
    SameScripts s (ts.foldl (attempt sources) s) ∧ Beside s (ts.foldl (attempt sources) s) := by
  induction ts generalizing s with
  | nil => exact ⟨⟨rfl, rfl, rfl⟩, .refl s⟩
  | cons t ts ih =>
      have hone : SameScripts s (attempt sources s t) := by
        unfold attempt
        split <;> exact ⟨rfl, rfl, rfl⟩
      obtain ⟨⟨hscripts, hcalls, hframes⟩, hbeside⟩ := ih (attempt sources s t)
      exact ⟨⟨hscripts.trans hone.scripts, hcalls.trans hone.calls, hframes.trans hone.frames⟩,
        (Beside.attempt sources s t).trans hbeside⟩

/-- Apart from the journal, the scripts of a scene with a script are replaced by starting it. -/
theorem exists_swapScripts_eq (path : String) (s : Session) :
    ∃ chronicle, swapScripts sources (some path) s =
      let started := (startScripts sources path { s.closeScripts with calls := #[] }).2
      { started with world := { started.world with chronicle } } := by
  unfold swapScripts
  dsimp only
  split
  · rename_i s' heq
    exact ⟨s'.world.chronicle, (congrArg Prod.snd heq).symm ▸ rfl⟩
  · rename_i e s' heq
    rw [heq]
    exact ⟨_, rfl⟩

end

end Session

/-- A session with somebody watching its scripts. -/
structure Attended [Interpreter] where
  session : Session
  /-- The threads of the scripts, with their numbers. -/
  threads : Option (Scheduler (Numbered Interpreter.Context))
  /-- How many threads have been created; they have the numbers below this one. -/
  created : ℕ
  /-- All that was done so far, the oldest first. -/
  deeds : List Deed

namespace Attended

open Deed

variable [Interpreter]

/-- Scripts have acted: the machine has been asked for some things, and events may have been asked
for. -/
def acted (a : Attended) (session : Session)
    (threads : Option (Scheduler (Numbered Interpreter.Context)))
    (w : Watched Interpreter.State Interpreter.Function Interpreter.Argument) : Attended where
  session := session
  threads := threads
  created := w.prepared
  deeds := a.deeds ++ (w.requests.filterMap ofRequest? ++
    (session.calls.toList.drop a.session.calls.size).map .asked)

/-- A state that nothing has been asked of since the watch began. -/
def watch (a : Attended) (s : Interpreter.State) :
    Watched Interpreter.State Interpreter.Function Interpreter.Argument :=
  ⟨s, [], a.created⟩

section

variable (sources : Sources)

/-- Starts a script. -/
def startScripts (path : String) (a : Attended) : Attended :=
  let session := (a.session.startScripts sources path).2
  match SceneScripts.loaded? sources path a.session.reach with
  | none => a.acted session none (a.watch (Interpreter.fresh a.session.reach))
  | some s =>
    let (threads, w) := SceneScripts.watchedBegin a.session.config.watchdog (a.watch s)
    a.acted session (some threads) w

/-- Ends the scripts when a scene has been entered. -/
def leaveScene (a : Attended) : Attended where
  session := { a.session.closeScripts with calls := #[] }
  threads := none
  created := a.created
  deeds := a.deeds ++ [.entered]

/-- Replaces the scripts by those of a new scene. -/
def swapScripts (script : Option String) (a : Attended) : Attended :=
  match script with
  | none => a.leaveScene
  | some path =>
    { a.leaveScene.startScripts sources path with
      session := a.session.swapScripts sources (some path) }

/-- Replaces the scripts if the scene has changed. -/
def followScene (a : Attended) : Attended :=
  match a.session.world.takePendingScript with
  | (some script, world) =>
    swapScripts sources script { a with session := { a.session with world } }
  | (none, _) => a

/-- Runs the scripts. -/
def runScripts (a : Attended) : Attended :=
  match a.session.scripts, a.threads with
  | some scripts, some threads =>
    let (threads, w) := threads.tick machine.watched
      (a.watch (a.session.scriptState sources scripts))
    a.acted (a.session.runScripts sources) (some (SceneScripts.dropEntry scripts.entry threads)) w
  | _, _ => { a with session := a.session.runScripts sources }

/-- Calls an event that a script wants to be called. -/
def answerCall (a : Attended) (name : String) : Attended :=
  { a with
    session := a.session.answerCall sources name
    deeds := a.deeds ++ [.tried name (a.session.world.library.find? name)] }

/-- Calls what scripts want to be called. -/
def answerCalls (a : Attended) : Attended :=
  a.session.calls.toList.foldl (answerCall sources)
    { a with session := { a.session with calls := #[] } }

/-- Plays one frame. -/
def frame (a : Attended) : Attended :=
  let (status, s) := Session.runEvents sources (Session.beginFrame sources a.session)
  let a := { a with session := Session.closeIdleBox status s }
  let a := a.followScene sources
  let a := a.runScripts sources
  let a := a.answerCalls sources
  { a with session := a.session.endFrame }

/-- Begins a session with a scene. -/
def load (config : SessionConfig) (path : String) (scene : Scene) : Attended :=
  let a : Attended := ⟨Session.opening sources config (World.ofScene scene), none, 0, []⟩
  let a := match scene.script with
    | some script => a.startScripts sources script
    | none => a
  { a with session := a.session.note ⟨.info, s!"scene {a.session.world.scene} loaded from {path}"⟩ }

/-! ## Watching changes nothing -/

theorem session_startScripts (path : String) (a : Attended) :
    (a.startScripts sources path).session = (a.session.startScripts sources path).2 := by
  unfold startScripts
  dsimp only
  split <;> rfl

theorem session_swapScripts (script : Option String) (a : Attended) :
    (a.swapScripts sources script).session = a.session.swapScripts sources script := by
  cases script <;> rfl

theorem session_followScene (a : Attended) :
    (a.followScene sources).session = a.session.followScene sources := by
  rcases hpending : a.session.world.takePendingScript with ⟨_ | script, world⟩
  · simp only [followScene, Session.followScene, hpending]
  · simp only [followScene, Session.followScene, hpending]
    exact session_swapScripts sources _ _

theorem session_runScripts (a : Attended) :
    (a.runScripts sources).session = a.session.runScripts sources := by
  unfold runScripts
  split <;> rfl

theorem session_answerCalls (a : Attended) :
    (a.answerCalls sources).session = a.session.answerCalls sources := by
  have hfold : ∀ (names : List String) (a : Attended),
      (names.foldl (answerCall sources) a).session =
        names.foldl (Session.answerCall sources) a.session := by
    intro names
    induction names with
    | nil => exact fun a => rfl
    | cons name names ih => exact fun a => ih (answerCall sources a name)
  exact hfold _ _

/-- A frame that is watched is a frame. -/
theorem session_frame (a : Attended) :
    (a.frame sources).session = a.session.frame sources := by
  unfold frame Session.frame Session.finishFrame
  dsimp only
  rw [session_answerCalls, session_runScripts, session_followScene]

/-- A session that is watched from its beginning has the beginning of a session. -/
theorem session_load {config : SessionConfig} {path : String} {lines : List Line} {scene : Scene}
    {s : Session} (hscene : sources.scene path = (lines, .ok scene))
    (hload : Session.load sources config path = (lines, .ok s)) :
    (load sources config path scene).session = s := by
  unfold Session.load at hload
  rw [hscene] at hload
  unfold load
  dsimp only at hload ⊢
  cases hscript : scene.script with
  | none =>
      rw [hscript] at hload
      exact Except.ok.inj (Prod.mk.inj hload).2
  | some script =>
      rw [hscript] at hload
      dsimp only at hload ⊢
      rw [session_startScripts]
      split at hload
      · exact absurd (Prod.mk.inj hload).2 (by simp)
      · exact Except.ok.inj (Prod.mk.inj hload).2

end

/-! ## The threads that are watched -/

/-- The threads that are watched are those of the session. -/
def Attends (a : Attended) : Prop :=
  a.session.scripts.map (·.scheduler) = a.threads.map Scheduler.bare

section

variable {sources : Sources} {a : Attended}

theorem attends_leaveScene (a : Attended) : a.leaveScene.Attends := by
  have hclosed : a.session.closeScripts.scripts = none := by
    unfold Session.closeScripts
    split
    · rfl
    · assumption
  unfold Attends leaveScene
  rw [hclosed]
  rfl

theorem attends_startScripts (path : String) (hscripts : a.session.scripts = none) :
    (a.startScripts sources path).Attends := by
  unfold Attends startScripts Session.startScripts
  rcases SceneScripts.start_cases sources a.session.config.watchdog path a.session.reach with
    ⟨s, hloaded, hstart⟩ | ⟨hloaded, e, r, hstart⟩
  · rw [hloaded, hstart]
    exact congrArg some
      (SceneScripts.scheduler_begin path a.session.config.watchdog (a.watch s))
  · rw [hloaded, hstart]
    exact congrArg (Option.map SceneScripts.scheduler) hscripts

theorem attends_swapScripts (script : Option String) (a : Attended) :
    (a.swapScripts sources script).Attends := by
  cases script with
  | none => exact attends_leaveScene a
  | some path =>
      have hleft : a.leaveScene.session.scripts = none := by
        have h := attends_leaveScene a
        exact Option.map_eq_none_iff.1 h
      have hstarted : (a.leaveScene.startScripts sources path).Attends :=
        attends_startScripts path hleft
      obtain ⟨chronicle, heq⟩ := Session.exists_swapScripts_eq sources path a.session
      unfold Attends at hstarted ⊢
      rw [session_startScripts] at hstarted
      unfold swapScripts
      dsimp only
      rw [heq]
      exact hstarted

theorem attends_followScene (h : a.Attends) : (a.followScene sources).Attends := by
  unfold followScene
  split
  · exact attends_swapScripts _ _
  · exact h

/-- Scripts whose tick ends do the same when they are watched. -/
theorem runScripts_cases (h : a.Attends) (hreturn : a.session.ScriptsReturn sources) :
    (a.session.scripts = none ∧ a.threads = none ∧ a.runScripts sources = a) ∨
    ∃ scripts threads threads' w', a.session.scripts = some scripts ∧ a.threads = some threads ∧
      Scheduler.Runs machine.watched 0 threads
        (a.watch (a.session.scriptState sources scripts)) (threads', w') ∧
      (scripts.scheduler.tick machine (a.session.scriptState sources scripts)).1 = threads'.bare ∧
      a.runScripts sources = a.acted (a.session.runScripts sources)
        (some (SceneScripts.dropEntry scripts.entry threads')) w' := by
  unfold Attends at h
  cases hscripts : a.session.scripts with
  | none =>
      rw [hscripts] at h
      have hrun : a.session.runScripts sources = a.session := by
        unfold Session.runScripts
        rw [hscripts]
      refine .inl ⟨rfl, Option.map_eq_none_iff.1 h.symm, ?_⟩
      unfold runScripts
      rw [hscripts, hrun]
  | some scripts =>
      obtain ⟨q, hruns⟩ := hreturn scripts hscripts
      rw [hscripts] at h
      obtain ⟨threads, hthreads, hbare⟩ := Option.map_eq_some_iff.1 h.symm
      have hbare : scripts.scheduler = threads.bare := hbare.symm
      have hticked : scripts.scheduler.tick machine (a.session.scriptState sources scripts) = q :=
        hruns.resumeFrom_eq
      -- the tick ends without the watch, so it ends with it
      rw [hbare] at hruns
      obtain ⟨threads', w', hwatched, rfl⟩ := Scheduler.Runs.exists_watched
        (w := a.watch (a.session.scriptState sources scripts)) hruns
      refine .inr ⟨scripts, threads, threads', w', rfl, hthreads, hwatched,
        congrArg Prod.fst hticked, ?_⟩
      have hwatchedTick : threads.tick machine.watched
          (a.watch (a.session.scriptState sources scripts)) = (threads', w') :=
        hwatched.resumeFrom_eq
      unfold runScripts
      rw [hscripts, hthreads]
      dsimp only
      rw [hwatchedTick]

theorem attends_runScripts (h : a.Attends) (hreturn : a.session.ScriptsReturn sources) :
    (a.runScripts sources).Attends := by
  rcases runScripts_cases h hreturn with
    ⟨-, -, hrun⟩ | ⟨scripts, threads, threads', w', hscripts, -, -, hticked, hrun⟩
  · rw [hrun]
    exact h
  · have hscheduler : (scripts.tick (sources.clock a.session.frames) a.session.reach).1.scheduler =
        (SceneScripts.dropEntry scripts.entry threads').bare := by
      rw [SceneScripts.scheduler_tick, ← Session.scriptState, hticked, SceneScripts.dropEntry_bare]
    unfold Attends
    rw [hrun]
    unfold acted Session.runScripts
    rw [hscripts]
    exact congrArg some hscheduler

/-- What is written down when everything that scripts want to be called is answered. -/
def answers (a : Attended) : List Deed := a.session.attempts.map fun t => .tried t.1 t.2

/-- What scripts want to be called is answered by one attempt for each name, in order. -/
theorem answerCalls_eq (sources : Sources) (a : Attended) : a.answerCalls sources =
    { a with
      session := a.session.attempts.foldl (Session.attempt sources)
        { a.session with calls := #[] }
      deeds := a.deeds ++ a.answers } := by
  have hfold : ∀ (names : List String) (library : Library) (a : Attended),
      a.session.world.library = library → names.foldl (answerCall sources) a =
        { a with
          session := (names.map fun name => (name, library.find? name)).foldl
            (Session.attempt sources) a.session
          deeds := a.deeds ++
            (names.map fun name => (name, library.find? name)).map fun t => .tried t.1 t.2 } := by
    intro names library
    induction names with
    | nil =>
        intro a _
        simp
    | cons name names ih =>
        rintro a rfl
        -- the next name is looked up in the same library
        have hkept : (answerCall sources a name).session.world.library =
            a.session.world.library := (Session.Beside.answerCall sources a.session name).library
        rw [List.foldl_cons, ih _ hkept]
        simp only [answerCall, Session.answerCall_eq, List.map_cons, List.foldl_cons,
          List.append_assoc, List.singleton_append]
  exact hfold _ _ _ rfl

theorem attends_answerCalls (h : a.Attends) : (a.answerCalls sources).Attends := by
  rw [answerCalls_eq]
  unfold Attends
  rw [(Session.foldl_attempt_keeps sources _ _).1.scripts]
  exact h

/-- A frame is its parts. -/
theorem frame_eq {r : TickStatus × Tracker × World}
    (h : Session.Returns sources a.session r) :
    let b := (({ a with session := Session.afterEvents sources a.session r }.followScene
      sources).runScripts sources).answerCalls sources
    a.frame sources = { b with session := b.session.endFrame } := by
  unfold frame Session.runEvents
  rw [h.tick_eq]
  rfl

theorem attends_frame {r : TickStatus × Tracker × World} (h : a.Attends)
    (hreturns : Session.FrameReturns sources a.session r) : (a.frame sources).Attends := by
  rw [frame_eq hreturns.events]
  have hafter : Attends { a with session := Session.afterEvents sources a.session r } := by
    unfold Attends
    rw [(Session.sameScripts_afterEvents sources a.session r).scripts]
    exact h
  have hbefore : (followScene sources
      { a with session := Session.afterEvents sources a.session r }).Attends :=
    attends_followScene hafter
  refine attends_answerCalls (attends_runScripts hbefore ?_)
  rw [session_followScene]
  exact hreturns.scripts

end

end Attended

end Cutscene
