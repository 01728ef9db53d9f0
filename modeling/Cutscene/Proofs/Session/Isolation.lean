import Cutscene.Proofs.Script.Contract
import Cutscene.Proofs.Session.Deeds

/-!
# Scripts of one scene keep out of the next

When events change the scene, the scripts of the old scene end before those of the new one start,
and what they still wanted to be called is forgotten in between. So no thread of the old scripts is
ever resumed again and none of their requests is answered. Every other request is answered by one
attempt to call the event of its name, in the order of the requests and before the frame is over
(`scripts_isolated`).

A frame is an arrival, if its tick has loaded a scene, then whatever scripts do (`Acts`), and then
the answers (`Parts`). What is known of the threads and of the requests is kept by each of the three
(`Keeps`).
-/

namespace Cutscene

open Deed

namespace Attended

section

variable [Interpreter]

/-- The numbers of the live threads. -/
def alive (a : Attended) : List ℕ := a.threads.elim [] Scheduler.numbers

/-- Scripts have acted, and nothing was done but what they do. -/
structure Acts (a a' : Attended) (ds : List Deed) : Prop where
  deeds : a'.deeds = a.deeds ++ ds
  entered : .entered ∉ ds
  tries : tries ds = []
  calls : a'.session.calls.toList = a.session.calls.toList ++ asks ds
  handles : Handles a.alive a.created ds a'.alive a'.created
  beside : Session.Beside a.session a'.session

/-- What is known of a session between two things that are done in it. -/
structure Keeps (a : Attended) : Prop where
  settled : Settled a.alive a.created a.deeds
  /-- What is still to be called is what the session has on its list. -/
  waiting : waiting? a.deeds = some a.session.calls.toList

section

variable {sources : Sources} {a a' a'' : Attended} {ds es : List Deed}

namespace Acts

theorem refl (a : Attended) : Acts a a [] where
  deeds := (List.append_nil _).symm
  entered := List.not_mem_nil
  tries := rfl
  calls := (List.append_nil _).symm
  handles := .refl _ _ (fun _ => List.not_mem_nil) fun _ => List.not_mem_nil
  beside := .refl _

theorem trans (h : Acts a a' ds) (h' : Acts a' a'' es) : Acts a a'' (ds ++ es) where
  deeds := by rw [h'.deeds, h.deeds, List.append_assoc]
  entered hmem := (List.mem_append.1 hmem).elim h.entered h'.entered
  tries := by rw [tries_append, h.tries, h'.tries, List.append_nil]
  calls := by rw [h'.calls, h.calls, asks_append, List.append_assoc]
  handles := h.handles.trans h'.handles
  beside := h.beside.trans h'.beside

/-- What scripts do shows in what the machine is asked for and in the list of what is to be called,
which only grows. -/
theorem of_acted {session : Session} {threads : Option (Scheduler (Numbered Interpreter.Context))}
    {w : Watched Interpreter.State Interpreter.Function Interpreter.Argument}
    (hcalls : a.session.calls.toList <+: session.calls.toList)
    (hbeside : Session.Beside a.session session)
    (hhandles : Handles a.alive a.created (w.requests.filterMap ofRequest?)
      (threads.elim [] Scheduler.numbers) w.prepared) :
    ∃ ds, Acts a (a.acted session threads w) ds := by
  -- what is on the list now and was not before is at its end
  obtain ⟨names, hnames⟩ := hcalls
  have hdrop : session.calls.toList.drop a.session.calls.size = names := by
    rw [← hnames]
    exact List.drop_left
  have hdeeds : ∀ d ∈ w.requests.filterMap ofRequest? ++ names.map .asked,
      ((∃ n, d = .created n) ∨ ∃ n, d = .resumed n) ∨ ∃ name, d = .asked name := by
    intro d hd
    rcases List.mem_append.1 hd with hd | hd
    · obtain ⟨r, -, hr⟩ := List.mem_filterMap.1 hd
      exact .inl (ofRequest?_cases hr)
    · obtain ⟨name, -, rfl⟩ := List.mem_map.1 hd
      exact .inr ⟨name, rfl⟩
  refine ⟨_, congrArg (fun names => a.deeds ++ (_ ++ List.map asked names)) hdrop, ?_, ?_, ?_,
    hhandles.trans (.refl _ _ ?_ ?_), hbeside⟩
  · intro hmem
    rcases hdeeds _ hmem with (⟨n, hn⟩ | ⟨n, hn⟩) | ⟨name, hname⟩
    · cases hn
    · cases hn
    · cases hname
  · refine List.filterMap_eq_nil_iff.2 fun d hd => ?_
    rcases hdeeds d hd with (⟨n, rfl⟩ | ⟨n, rfl⟩) | ⟨name, rfl⟩ <;> rfl
  · rw [asks_append, asks_ofRequest?, asks_map_asked, List.nil_append]
    exact hnames.symm
  · simp
  · simp

theorem keeps (h : Acts a a' ds) (ha : a.Keeps) : a'.Keeps where
  settled := by
    rw [h.deeds]
    exact ha.settled.append h.entered h.handles
  waiting := by
    rw [h.deeds, waiting?_append, ha.waiting, Option.bind_some,
      foldlM_wait?_of_tries h.entered h.tries, h.calls]

end Acts

/-! ## The parts of a frame -/

/-- Scripts that are started where none were. -/
theorem acts_startScripts [Interpreter.Contract] (sources : Sources) (path : String)
    (hthreads : a.threads = none) :
    ∃ ds, Acts a (a.startScripts sources path) ds := by
  have hcalls := SceneScripts.calls_start sources a.session.config.watchdog path a.session.reach
  have hsession : (a.session.startScripts sources path).2.calls =
      (SceneScripts.start sources a.session.config.watchdog path a.session.reach).2.calls := by
    unfold Session.startScripts
    dsimp only
    split <;> rfl
  rw [← hsession] at hcalls
  have hbeside := Session.Beside.of_scripted (Session.Scripted.startScripts sources path a.session)
  have halive : a.alive = [] := by rw [alive, hthreads]; rfl
  unfold startScripts
  dsimp only
  split
  · refine Acts.of_acted hcalls hbeside ?_
    rw [halive]
    exact .refl _ _ (fun _ => List.not_mem_nil) fun _ => List.not_mem_nil
  · refine Acts.of_acted hcalls hbeside ?_
    rw [halive]
    exact SceneScripts.handles_watchedBegin a.session.config.watchdog (w := a.watch _) rfl

theorem acts_swapScripts [Interpreter.Contract] (sources : Sources) (script : Option String)
    (a : Attended) :
    ∃ ds, Acts a.leaveScene (a.swapScripts sources script) ds := by
  cases script with
  | none => exact ⟨[], .refl _⟩
  | some path =>
      obtain ⟨ds, hstarted⟩ := acts_startScripts (a := a.leaveScene) sources path rfl
      obtain ⟨chronicle, heq⟩ := Session.exists_swapScripts_eq sources path a.session
      refine ⟨ds, hstarted.deeds, hstarted.entered, hstarted.tries, ?_, hstarted.handles, ?_⟩
      · have hcalls := hstarted.calls
        rw [session_startScripts] at hcalls
        unfold swapScripts
        dsimp only
        rw [heq]
        exact hcalls
      · have hbeside := hstarted.beside
        rw [session_startScripts] at hbeside
        unfold swapScripts
        dsimp only
        rw [heq]
        exact hbeside.trans (.of_world rfl rfl)

/-- Leaves the old scene behind, if events have entered another. -/
def arrive (a : Attended) : Attended :=
  match a.session.world.takePendingScript with
  | (some _, world) => leaveScene { a with session := { a.session with world } }
  | (none, _) => a

theorem acts_followScene [Interpreter.Contract] (sources : Sources) (a : Attended) :
    ∃ ds, Acts a.arrive (a.followScene sources) ds := by
  unfold arrive followScene
  rcases a.session.world.takePendingScript with ⟨_ | script, world⟩
  · exact ⟨[], .refl a⟩
  · exact acts_swapScripts sources script _

theorem acts_runScripts [Interpreter.Contract] (h : a.Attends)
    (hreturn : a.session.ScriptsReturn sources) : ∃ ds, Acts a (a.runScripts sources) ds := by
  rcases runScripts_cases h hreturn with
    ⟨-, -, hrun⟩ | ⟨scripts, threads, threads', w', hscripts, hthreads, hwatched, -, hrun⟩
  · rw [hrun]
    exact ⟨[], .refl a⟩
  · obtain ⟨q, hruns⟩ := hreturn scripts hscripts
    obtain ⟨us, hticked⟩ := Round.exists_ticked hwatched (.nil _ _)
    rw [hrun]
    refine Acts.of_acted ?_ (.of_scripted (.runScripts sources _)) ?_
    · unfold Session.runScripts
      rw [hscripts]
      exact SceneScripts.calls_tick hruns
    · rw [alive, hthreads]
      show Handles _ _ _ (Scheduler.numbers _) _
      rw [Scheduler.numbers, SceneScripts.threads_dropEntry]
      exact hticked.handles rfl

theorem Keeps.leaveScene (h : a.Keeps) : a.leaveScene.Keeps where
  settled := h.settled.enter
  waiting := by
    unfold Attended.leaveScene
    rw [waiting?_append, h.waiting]
    rfl

theorem Keeps.arrive (h : a.Keeps) : a.arrive.Keeps := by
  unfold Attended.arrive
  split
  · exact Keeps.leaveScene ⟨h.settled, h.waiting⟩
  · exact h

/-- When everything has been answered, nothing is left to be called. -/
theorem Keeps.answerCalls (h : a.Keeps) : (a.answerCalls sources).Keeps := by
  have hcalls : a.session.attempts.map Prod.fst = a.session.calls.toList := by
    rw [Session.attempts, List.map_map]
    exact List.map_id _
  rw [answerCalls_eq]
  refine ⟨h.settled.append ?_ (.refl _ _ ?_ ?_), ?_⟩
  · simp [answers]
  · simp [answers]
  · simp [answers]
  · rw [(Session.foldl_attempt_keeps sources _ _).1.calls, waiting?_append, h.waiting,
      Option.bind_some, ← hcalls]
    exact foldlM_wait?_tried _

end

/-! ## Sessions that are played -/

/-- A session that is watched from its beginning, while frames are played that return. -/
inductive Played (sources : Sources) : Attended → Prop
  | loaded {config : SessionConfig} {path : String} {lines : List Line} {scene : Scene}
      {s : Session} (hscene : sources.scene path = (lines, .ok scene))
      (hload : Session.load sources config path = (lines, .ok s)) :
      Played sources (load sources config path scene)
  | press {a : Attended} (c : Control) (ha : Played sources a) :
      Played sources { a with session := a.session.press c }
  | walkTo {a : Attended} (p : Point) (ha : Played sources a) :
      Played sources { a with session := a.session.walkTo p }
  | frame {a : Attended} {r : TickStatus × Tracker × World} (ha : Played sources a)
      (hreturns : Session.FrameReturns sources a.session r) : Played sources (a.frame sources)

/-- What is known of a session between two frames. -/
structure AtRest (a : Attended) : Prop extends Keeps a where
  attends : a.Attends
  pending : a.session.world.pendingScript = none
  /-- Only what scripts have asked for when they were loaded waits for a frame. -/
  calls : a.session.calls.toList = if a.session.frames = 0 then asks a.deeds else []

section

variable {sources : Sources} {a : Attended} {r : TickStatus × Tracker × World}

theorem AtRest.of_session {s : Session} (h : a.AtRest) (hsame : Session.SameScripts a.session s)
    (hpending : s.world.pendingScript = a.session.world.pendingScript) :
    AtRest { a with session := s } where
  settled := h.settled
  waiting := by rw [hsame.calls]; exact h.waiting
  attends := by
    unfold Attends
    rw [hsame.scripts]
    exact h.attends
  pending := hpending.trans h.pending
  calls := by
    rw [hsame.calls, hsame.frames]
    exact h.calls

theorem atRest_load [Interpreter.Contract] (sources : Sources) (config : SessionConfig)
    (path : String) (scene : Scene) :
    (load sources config path scene).AtRest := by
  have hopening : (Session.opening sources config (World.ofScene scene)).scripts = none ∧
      (Session.opening sources config (World.ofScene scene)).calls = #[] ∧
      (Session.opening sources config (World.ofScene scene)).frames = 0 ∧
      (Session.opening sources config (World.ofScene scene)).world.pendingScript = none := by
    unfold Session.opening
    dsimp only
    split <;> exact ⟨rfl, rfl, rfl, rfl⟩
  obtain ⟨hscripts, hcalls, hframes, hpending⟩ := hopening
  generalize hs : Session.opening sources config (World.ofScene scene) = s at *
  have hblank : AtRest ⟨s, none, 0, []⟩ := by
    refine ⟨⟨⟨by simp, by simp [alive], ?_⟩, ?_⟩, ?_, hpending, ?_⟩
    · intro before after heq
      simp at heq
    · rw [hcalls]
      rfl
    · unfold Attends
      rw [hscripts]
      rfl
    · rw [hcalls, hframes]
      rfl
  unfold load
  rw [hs]
  dsimp only
  refine AtRest.of_session ?_ ⟨rfl, rfl, rfl⟩ rfl
  split
  · rename_i script _
    obtain ⟨ds, hacts⟩ := acts_startScripts (a := ⟨s, none, 0, []⟩) sources script rfl
    refine ⟨hacts.keeps hblank.toKeeps, attends_startScripts script hscripts,
      hacts.beside.pendingScript.trans hpending, ?_⟩
    rw [hacts.beside.frames, hframes, if_pos rfl, hacts.calls, hacts.deeds, hcalls]
    rfl
  · exact hblank

/-- What one frame does with scripts, `new` being what is written down of it. -/
structure Isolates (sources : Sources) (a : Attended) (r : TickStatus × Tracker × World)
    (new : List Deed) : Prop where
  /-- What is watched is the frame. -/
  session : (a.frame sources).session = a.session.frame sources
  attends : (a.frame sources).Attends
  deeds : (a.frame sources).deeds = a.deeds ++ new
  /-- No thread of the scripts of an earlier scene has been resumed in a later one. -/
  isolated : Isolated (a.deeds ++ new)
  /-- In front of the frame only what scripts have asked for when they were loaded first is still
  to be called. -/
  carried : a.session.calls.toList = if a.session.frames = 0 then asks a.deeds else []
  /-- In a frame whose tick loads a scene, what was to be called before is not. -/
  loads : Session.LoadsScene sources a.session →
    (∃ done, new = .entered :: done ∧ .entered ∉ done) ∧ (tries new).map Prod.fst = asks new
  /-- In every other frame, there is one attempt for all that is to be called, in order. -/
  stays : ¬Session.LoadsScene sources a.session →
    .entered ∉ new ∧ (tries new).map Prod.fst = a.session.calls.toList ++ asks new
  /-- Attempts are made with the library of the scene that is played at the end of the frame. -/
  found : ∀ t ∈ tries new, t.2 = (a.session.frame sources).world.library.find? t.1
  /-- When the scripts have run, the attempts are all that is done in the frame. -/
  applied : a.session.frame sources = ((tries new).foldl (Session.attempt sources)
    { (Session.beforeScripts sources a.session r).runScripts sources with calls := #[] }).endFrame
  /-- Since the beginning, each attempt was to call what was asked for first since a scene was
  entered last, and nothing is left. -/
  waiting : waiting? (a.deeds ++ new) = some []
  calls : (a.session.frame sources).calls = #[]

/-! ## One frame -/

theorem arrive_of_none (h : a.session.world.pendingScript = none) : a.arrive = a := by
  unfold arrive World.takePendingScript
  rw [h]

theorem arrive_of_some {script : Option String}
    (h : a.session.world.pendingScript = some script) :
    a.arrive = leaveScene { a with
      session := { a.session with world := { a.session.world with pendingScript := none } } } := by
  unfold arrive World.takePendingScript
  rw [h]

/-- How a frame that is played from `a` comes about: what there is when the session has arrived
where its events have led to, what there is when the scripts have run, and what was done on either
way. -/
structure Parts (sources : Sources) (a : Attended) (r : TickStatus × Tracker × World)
    (arrived run : Attended) (front ds : List Deed) : Prop where
  keeps : arrived.Keeps
  deeds : arrived.deeds = a.deeds ++ front
  pending : arrived.session.world.pendingScript = none
  front : (Session.LoadsScene sources a.session ∧ front = [.entered] ∧
      arrived.session.calls = #[]) ∨
    (¬Session.LoadsScene sources a.session ∧ front = [] ∧
      arrived.session.calls = a.session.calls)
  acts : Acts arrived run ds
  session : run.session = (Session.beforeScripts sources a.session r).runScripts sources
  frame : a.frame sources = { run.answerCalls sources with
    session := (run.answerCalls sources).session.endFrame }

/-- A scene is entered in the frames whose tick has loaded one. -/
theorem arrive_cases (h : a.AtRest) (hreturns : Session.Returns sources a.session r) :
    let b := arrive { a with session := Session.afterEvents sources a.session r }
    b.session.world.pendingScript = none ∧ ∃ front, b.deeds = a.deeds ++ front ∧
      ((Session.LoadsScene sources a.session ∧ front = [.entered] ∧ b.session.calls = #[]) ∨
        (¬Session.LoadsScene sources a.session ∧ front = [] ∧
          b.session.calls = a.session.calls)) := by
  have hloads : (Session.afterEvents sources a.session r).world.pendingScript.isSome = true ↔
      Session.LoadsScene sources a.session := by
    rw [Session.afterEvents, Session.pendingScript_closeIdleBox]
    exact Session.pendingScript_iff_loadsScene h.pending hreturns
  have hsame := Session.sameScripts_afterEvents sources a.session r
  intro b
  rw [← hloads]
  cases hpending : (Session.afterEvents sources a.session r).world.pendingScript with
  | none =>
      rw [show b = _ from arrive_of_none hpending]
      exact ⟨hpending, [], (List.append_nil _).symm,
        .inr ⟨Bool.false_ne_true, rfl, hsame.calls⟩⟩
  | some script =>
      rw [show b = _ from arrive_of_some hpending]
      refine ⟨?_, _, rfl, .inl ⟨rfl, rfl, rfl⟩⟩
      exact (Session.Beside.of_scripted (.closeScripts _)).pendingScript

theorem exists_parts [Interpreter.Contract] (h : a.AtRest)
    (hreturns : Session.FrameReturns sources a.session r) :
    ∃ arrived run front ds, Parts sources a r arrived run front ds := by
  obtain ⟨hpending, front, hdeeds, hfront⟩ := arrive_cases h hreturns.events
  -- up to the end of the tick, nothing has happened to the scripts
  have hsame := Session.sameScripts_afterEvents sources a.session r
  generalize hb :
    ({ a with session := Session.afterEvents sources a.session r } : Attended) = b at *
  have hkeeps : b.Keeps := by
    rw [← hb]
    exact ⟨h.settled, by rw [hsame.calls]; exact h.waiting⟩
  have hattends : b.Attends := by
    rw [← hb, Attends, hsame.scripts]
    exact h.attends
  have hfollowed : (b.followScene sources).session =
      Session.beforeScripts sources a.session r := by
    rw [session_followScene, ← hb]
    rfl
  obtain ⟨ds, harrived⟩ := acts_followScene sources b
  have hfollows : (b.followScene sources).Attends := attends_followScene hattends
  have hreturn : (b.followScene sources).session.ScriptsReturn sources := by
    rw [hfollowed]
    exact hreturns.scripts
  obtain ⟨es, hran⟩ := acts_runScripts hfollows hreturn
  exact ⟨b.arrive, (b.followScene sources).runScripts sources, front, ds ++ es,
    { keeps := hkeeps.arrive
      deeds := hdeeds
      pending := hpending
      front := hfront
      acts := harrived.trans hran
      session := by rw [session_runScripts, hfollowed]
      frame := by rw [frame_eq hreturns.events, hb] }⟩

namespace Parts

variable {arrived run : Attended} {front ds : List Deed}

/-- What is written down of the frame. -/
theorem deeds_frame (h : Parts sources a r arrived run front ds) :
    (a.frame sources).deeds = a.deeds ++ (front ++ (ds ++ run.answers)) := by
  rw [h.frame, answerCalls_eq]
  show run.deeds ++ run.answers = _
  rw [h.acts.deeds, h.deeds]
  simp only [List.append_assoc]

theorem session_frame_eq (h : Parts sources a r arrived run front ds) :
    (a.frame sources).session = (run.session.attempts.foldl (Session.attempt sources)
      { run.session with calls := #[] }).endFrame := by
  rw [h.frame, answerCalls_eq]

/-- Nothing is left to be called. -/
theorem calls_frame (h : Parts sources a r arrived run front ds) :
    (a.frame sources).session.calls = #[] := by
  rw [h.session_frame_eq]
  exact (Session.foldl_attempt_keeps sources _ _).1.calls

theorem library_frame (h : Parts sources a r arrived run front ds) :
    (a.frame sources).session.world.library = run.session.world.library := by
  rw [h.session_frame_eq]
  exact (Session.foldl_attempt_keeps sources _ { run.session with calls := #[] }).2.library

theorem keeps_frame (h : Parts sources a r arrived run front ds) : (a.frame sources).Keeps := by
  have hkeeps : (run.answerCalls sources).Keeps := (h.acts.keeps h.keeps).answerCalls
  rw [h.frame]
  exact ⟨hkeeps.settled, hkeeps.waiting⟩

theorem atRest_frame (h : Parts sources a r arrived run front ds)
    (hattends : (a.frame sources).Attends) : (a.frame sources).AtRest where
  toKeeps := h.keeps_frame
  attends := hattends
  pending := by
    rw [h.session_frame_eq]
    have hbeside := (Session.foldl_attempt_keeps sources run.session.attempts
      { run.session with calls := #[] }).2
    exact hbeside.pendingScript.trans (h.acts.beside.pendingScript.trans h.pending)
  calls := by
    have hone : (a.frame sources).session.frames ≠ 0 := by
      rw [h.session_frame_eq]
      exact Nat.succ_ne_zero _
    rw [h.calls_frame, if_neg hone]

theorem front_quiet (h : Parts sources a r arrived run front ds) :
    asks front = [] ∧ tries front = [] := by
  rcases h.front with ⟨-, rfl, -⟩ | ⟨-, rfl, -⟩
  · exact ⟨rfl, rfl⟩
  · exact ⟨rfl, rfl⟩

/-- All attempts of the frame are answers. -/
theorem tries_new (h : Parts sources a r arrived run front ds) :
    tries (front ++ (ds ++ run.answers)) = run.session.attempts := by
  have hanswers : tries run.answers = run.session.attempts := by
    rw [answers, tries, List.filterMap_map]
    exact List.filterMap_some
  rw [tries_append, tries_append, h.front_quiet.2, h.acts.tries, hanswers]
  rfl

/-- What is called is what was to be called on arrival and what is asked for in the frame. -/
theorem fst_tries_new (h : Parts sources a r arrived run front ds) :
    (tries (front ++ (ds ++ run.answers))).map Prod.fst =
      arrived.session.calls.toList ++ asks (front ++ (ds ++ run.answers)) := by
  have hanswers : asks run.answers = [] := by
    refine List.filterMap_eq_nil_iff.2 fun d hd => ?_
    obtain ⟨t, -, rfl⟩ := List.mem_map.1 hd
    rfl
  rw [h.tries_new, asks_append, asks_append, h.front_quiet.1, hanswers, List.nil_append,
    List.append_nil, ← h.acts.calls, Session.attempts, List.map_map]
  exact List.map_id _

theorem entered_rest (h : Parts sources a r arrived run front ds) :
    .entered ∉ ds ++ run.answers := by
  intro hmem
  rcases List.mem_append.1 hmem with hacts | hanswers
  · exact h.acts.entered hacts
  · obtain ⟨t, -, ht⟩ := List.mem_map.1 hanswers
    cases ht

theorem isolates (h : Parts sources a r arrived run front ds)
    (hrest : a.AtRest) (hattends : (a.frame sources).Attends) :
    Isolates sources a r (front ++ (ds ++ run.answers)) where
  session := session_frame sources a
  attends := hattends
  deeds := h.deeds_frame
  isolated := by
    rw [← h.deeds_frame]
    exact h.keeps_frame.settled.isolated
  carried := hrest.calls
  loads hloads := by
    rcases h.front with ⟨-, hfront, hcalls⟩ | ⟨hstays, -, -⟩
    · rw [h.fst_tries_new, hcalls, hfront]
      exact ⟨⟨_, rfl, h.entered_rest⟩, rfl⟩
    · exact absurd hloads hstays
  stays hstays := by
    rcases h.front with ⟨hloads, -, -⟩ | ⟨-, hfront, hcalls⟩
    · exact absurd hloads hstays
    · rw [h.fst_tries_new, hcalls, hfront]
      exact ⟨h.entered_rest, rfl⟩
  found := by
    rw [h.tries_new, ← session_frame, h.library_frame]
    intro t ht
    obtain ⟨name, -, rfl⟩ := List.mem_map.1 ht
    rfl
  applied := by
    rw [h.tries_new, ← session_frame, h.session_frame_eq, h.session]
  waiting := by
    rw [← h.deeds_frame, h.keeps_frame.waiting, h.calls_frame]
  calls := by
    rw [← session_frame, h.calls_frame]

end Parts

theorem Played.atRest [Interpreter.Contract] (h : Played sources a) : a.AtRest := by
  induction h with
  | loaded _ _ => exact atRest_load _ _ _ _
  | press c _ ih => exact ih.of_session ⟨rfl, rfl, rfl⟩ rfl
  | walkTo p _ ih => exact ih.of_session ⟨rfl, rfl, rfl⟩ rfl
  | frame _ hreturns ih =>
      obtain ⟨arrived, run, front, ds, hparts⟩ := exists_parts ih hreturns
      exact hparts.atRest_frame (attends_frame ih.attends hreturns)

/-- Scripts of one scene keep out of the next, and what scripts ask for is neither lost nor done
twice. After a frame whose tick has loaded a scene, no thread of the scripts before is ever resumed
and nothing is called that they had asked for. In every frame there is one attempt for each of the
other requests since the last frame, in order and with the library of the moment, and no request is
left at its end. -/
theorem scripts_isolated [Interpreter.Contract] (h : Played sources a)
    (hreturns : Session.FrameReturns sources a.session r) : ∃ new, Isolates sources a r new := by
  obtain ⟨arrived, run, front, ds, hparts⟩ := exists_parts h.atRest hreturns
  exact ⟨_, hparts.isolates h.atRest (attends_frame h.atRest.attends hreturns)⟩

end

end

end Attended

/-! ## A crossing -/

namespace Session

/-- A script that asks for an event when it is loaded, and for another whenever it runs. -/
def askingScript (first again : String) : Script.Chunk where
  functions := [(SceneScripts.entryName,
    [.while (.boolean true) [.call "call_event" [.text again.toUTF8], .yield []]])]
  main := [.call "call_event" [.text first.toUTF8]]

/-- A scene with a script. -/
def shore : Scene where
  name := "shore"
  path := "shore.json"
  events := [("tide", [])]
  entities := []
  triggers := []
  flags := []
  script := some "shore.script"
  doors := []
  player := none

/-- A scene with another script, which leads there. -/
def ferry : Scene := { shore with
  name := "ferry"
  path := "ferry.json"
  events := [(Event.startName, [.sceneLoad "shore.json" none])]
  script := some "ferry.script" }

/-- The scenes and their scripts. -/
def crossingSources : Sources where
  scene path := ([], .ok (if path = "shore.json" then shore else ferry))
  script path := .ok (some
    (if path = "shore.script" then askingScript "tide" "gulls" else askingScript "bell" "oars"))

end Session

open Session in
/-- On the crossing the first frame loads a scene, and nobody rings the bell. -/
theorem Attended.scripts_isolated_crossing :
    ∃ a r, Played crossingSources a ∧ a.session.calls = #["bell"] ∧
      LoadsScene crossingSources a.session ∧ FrameReturns crossingSources a.session r ∧
      ∃ new, Isolates crossingSources a r new := by
  have hplay : ∃ s r, Session.load crossingSources .standard "ferry.json" = ([], .ok s) ∧
      s.calls = #["bell"] ∧ LoadsScene crossingSources s ∧
      Returns crossingSources s r ∧
      (beforeScripts crossingSources s r).ScriptsReturn crossingSources := by
    refine ⟨_, _, rfl, rfl, ⟨_, .refl, _, _, _, _, _, _, rfl, rfl, rfl⟩, .more rfl (.ended rfl), ?_⟩
    intro scripts hscripts
    cases hscripts
    exact ⟨_, .more rfl (.done rfl)⟩
  obtain ⟨s, r, hload, hcalls, hloads, hevents, hscripts⟩ := hplay
  have hsession : (load crossingSources .standard "ferry.json" ferry).session = s :=
    session_load crossingSources rfl hload
  rw [← hsession] at hcalls hloads hevents hscripts
  have hplayed : Played crossingSources (load crossingSources .standard "ferry.json" ferry) :=
    .loaded rfl hload
  exact ⟨_, r, hplayed, hcalls, hloads, ⟨hevents, hscripts⟩,
    scripts_isolated hplayed ⟨hevents, hscripts⟩⟩

end Cutscene
