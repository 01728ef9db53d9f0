import Cutscene.Proofs.Script.Contract
import Cutscene.Proofs.Session.Fates
import Cutscene.Proofs.Session.Attending

/-!
# What scripts return

A session logs what the entry thread of its scripts has returned when the thread has ended. What it
logs is told from what the threads themselves log: it is what comes behind that in a frame
(`Session.ScriptsTell`).

The scripts of a session live the life of scripts that were started (`SceneScripts.Lives`) until the
scene changes or the session is shut down, and then they are closed, which logs nothing. So what is
known of a tick and of such a life gives what has been logged of results since the present scripts
were started (`Session.Told.keeps`).
-/

namespace Cutscene

open Interpreter (machine)

namespace Session

section

variable [Interpreter]

/-- The tick of the scripts returns, and some lines are logged behind what its threads have
logged. -/
def ScriptsTell (sources : Sources) (s : Session) (lines : List String) : Prop :=
  match s.scripts with
  | some scripts => ∃ q,
      Scheduler.Runs machine 0 scripts.scheduler (s.scriptState sources scripts) q ∧
        (s.runScripts sources).world.chronicle.log.toList =
          (Interpreter.reach q.2).chronicle.log.toList ++ lines
  | none => lines = []

/-- A session that has begun with a scene and been played for some frames, and may have been shut
down, with what has been logged of results since the present scripts took the place of others. -/
inductive Told (sources : Sources) : List String → Session → Prop
  | loaded {config : SessionConfig} {path : String} {lines : List Line} {s : Session}
      (hload : load sources config path = (lines, .ok s)) : Told sources [] s
  | press {told : List String} {s : Session} (c : Control) (h : Told sources told s) :
      Told sources told (s.press c)
  | walkTo {told : List String} {s : Session} (p : Point) (h : Told sources told s) :
      Told sources told (s.walkTo p)
  | frame {told lines : List String} {s : Session} {r : TickStatus × Tracker × World}
      (h : Told sources told s) (hevents : Returns sources s r)
      (htell : (beforeScripts sources s r).ScriptsTell sources lines) :
      Told sources
        ((if (afterEvents sources s r).world.pendingScript.isSome then [] else told) ++ lines)
        (frame sources s)
  | shutdown {told : List String} {s : Session} (h : Told sources told s) :
      Told sources told s.shutdown

/-- At most one line has been told. The scripts live the life of scripts that were started, and once
the line is told they have no entry thread. -/
structure Keeps (sources : Sources) (told : List String) (s : Session) : Prop where
  length_le : told.length ≤ 1
  lives : ∀ scripts ∈ s.scripts,
    ∃ watchdog path r, SceneScripts.Lives sources watchdog path r scripts
  entry : ∀ scripts ∈ s.scripts, told ≠ [] → scripts.entry = none

namespace ScriptsTell

variable {sources : Sources} {s : Session} {lines lines' : List String}

theorem scriptsReturn (h : s.ScriptsTell sources lines) : s.ScriptsReturn sources := by
  intro scripts hscripts
  unfold ScriptsTell at h
  rw [hscripts] at h
  obtain ⟨q, hruns, -⟩ := h
  exact ⟨q, hruns⟩

theorem unique (h : s.ScriptsTell sources lines) (h' : s.ScriptsTell sources lines') :
    lines = lines' := by
  unfold ScriptsTell at h h'
  cases hscripts : s.scripts with
  | none =>
      rw [hscripts] at h h'
      exact h.trans h'.symm
  | some scripts =>
      rw [hscripts] at h h'
      obtain ⟨q, hruns, hlog⟩ := h
      obtain ⟨q', hruns', hlog'⟩ := h'
      obtain rfl : q = q' := hruns.resumeFrom_eq.symm.trans hruns'.resumeFrom_eq
      exact List.append_cancel_left (hlog.symm.trans hlog')

end ScriptsTell

theorem scripts_closeScripts (s : Session) : s.closeScripts.scripts = none := by
  unfold closeScripts
  split
  · rfl
  · assumption

/-- Scripts that are closed log nothing. -/
theorem log_closeScripts [Interpreter.Contract] (s : Session) :
    s.closeScripts.world.chronicle.log = s.world.chronicle.log := by
  have hsame : Reach.Compares fun r r' => r'.chronicle.log = r.chronicle.log :=
    ⟨fun hsame => hsame.log, fun h h' => h'.trans h⟩
  unfold closeScripts
  split
  · rename_i scripts _
    exact SceneScripts.close_within hsame scripts s.reach
  · rfl

/-- The scripts of a session, if it has any, have just been started. -/
def Started (sources : Sources) (s : Session) : Prop :=
  ∀ scripts ∈ s.scripts, ∃ watchdog path r r',
    SceneScripts.start sources watchdog path r = (.ok scripts, r')

namespace Started

variable {sources : Sources} {s : Session}

theorem startScripts (path : String) (hscripts : s.scripts = none) :
    Started sources (s.startScripts sources path).2 := by
  unfold Session.startScripts
  dsimp only
  split
  · rename_i scripts hstart
    rintro _ ⟨⟩
    exact ⟨_, _, _, _, Prod.ext hstart rfl⟩
  · intro scripts hsome
    cases hscripts.symm.trans hsome

theorem swapScripts (script : Option String) (s : Session) :
    Started sources (s.swapScripts sources script) := by
  have hclosed : { s.closeScripts with calls := #[] }.scripts = none := s.scripts_closeScripts
  cases script with
  | none =>
      intro scripts hsome
      cases hclosed.symm.trans hsome
  | some path =>
      obtain ⟨chronicle, heq⟩ := exists_swapScripts_eq sources path s
      rw [heq]
      exact startScripts path hclosed

/-- If the scene has changed, the scripts that run in a frame are new ones. -/
theorem beforeScripts {r : TickStatus × Tracker × World}
    (h : (afterEvents sources s r).world.pendingScript.isSome = true) :
    Started sources (beforeScripts sources s r) := by
  unfold Session.beforeScripts followScene World.takePendingScript
  cases hpending : (afterEvents sources s r).world.pendingScript with
  | none =>
      rw [hpending] at h
      cases h
  | some script => exact swapScripts script _

end Started

namespace Keeps

variable {sources : Sources} {told : List String} {s s' : Session}

theorem of_eq (h : Keeps sources told s) (hscripts : s'.scripts = s.scripts) :
    Keeps sources told s' := by
  obtain ⟨hlength, hlives, hentry⟩ := h
  rw [← hscripts] at hlives hentry
  exact ⟨hlength, hlives, hentry⟩

theorem of_none (hlength : told.length ≤ 1) (hscripts : s.scripts = none) :
    Keeps sources told s := by
  refine ⟨hlength, ?_, ?_⟩ <;> simp [hscripts]

/-- Scripts that have been started begin their life. -/
theorem of_started (h : Started sources s) : Keeps sources [] s := by
  refine ⟨Nat.zero_le 1, fun scripts hscripts => ?_, fun _ _ h => absurd rfl h⟩
  obtain ⟨watchdog, path, r, r', hstart⟩ := h scripts hscripts
  exact ⟨watchdog, path, r, .start hstart⟩

theorem followScene (h : Keeps sources told s) :
    Keeps sources (if s.world.pendingScript.isSome then [] else told) (s.followScene sources) := by
  unfold Session.followScene World.takePendingScript
  cases s.world.pendingScript with
  | none => exact h
  | some script => exact of_started (.swapScripts script _)

/-- What the scripts tell in a tick is what is to be told of their entry thread. -/
theorem exists_tell [Interpreter.Contract] (h : Keeps sources told s)
    (hreturn : s.ScriptsReturn sources) :
    ∃ lines, s.ScriptsTell sources lines ∧
      Keeps sources (told ++ lines) (s.runScripts sources) ∧
      ∀ scripts ∈ s.scripts, scripts.Accounts (sources.clock s.frames) s.reach lines := by
  unfold ScriptsTell
  cases hscripts : s.scripts with
  | none =>
      have hran : s.runScripts sources = s := by
        unfold Session.runScripts
        rw [hscripts]
      refine ⟨[], rfl, ?_, by simp⟩
      rw [hran, List.append_nil]
      exact h
  | some scripts =>
      obtain ⟨q, hruns⟩ := hreturn scripts hscripts
      obtain ⟨watchdog, path, r, hlives⟩ := h.lives scripts hscripts
      obtain ⟨lines, haccounts, hlog, hgone⟩ := hlives.exists_accounts hruns
      have hran : s.runScripts sources =
          { s.withReach (scripts.tick (sources.clock s.frames) s.reach).2 with
            scripts := some (scripts.tick (sources.clock s.frames) s.reach).1 } := by
        unfold Session.runScripts
        rw [hscripts]
      rw [hran]
      refine ⟨lines, ⟨q, hruns, hlog⟩, ⟨?_, ?_, ?_⟩, ?_⟩
      · -- once a line has been told there is no entry thread, and nothing more is told
        by_cases htold : told = []
        · rw [htold]
          exact haccounts.length_le
        · rw [haccounts.eq_nil (h.entry scripts hscripts htold), List.append_nil]
          exact h.length_le
      · rintro _ ⟨⟩
        exact ⟨watchdog, path, r, hlives.tick (sources.clock s.frames) s.reach hruns⟩
      · rintro _ ⟨⟩ htold
        refine hgone ?_
        by_cases hbefore : told = []
        · exact .inr (by simpa [hbefore] using htold)
        · exact .inl (h.entry scripts hscripts hbefore)
      · rintro _ ⟨⟩
        exact haccounts

theorem answerCalls (h : Keeps sources told s) : Keeps sources told (s.answerCalls sources) := by
  refine List.foldlRecOn s.calls.toList (answerCall sources) (motive := Keeps sources told)
    (h.of_eq rfl) fun s' h name _ => ?_
  unfold answerCall
  split <;> exact h.of_eq rfl

theorem beforeScripts (h : Keeps sources told s) (r : TickStatus × Tracker × World) :
    Keeps sources (if (afterEvents sources s r).world.pendingScript.isSome then [] else told)
      (beforeScripts sources s r) :=
  (h.of_eq (sameScripts_afterEvents sources s r).scripts).followScene

theorem frame [Interpreter.Contract] (h : Keeps sources told s) {r : TickStatus × Tracker × World}
    (hevents : Returns sources s r) {lines : List String}
    (htell : (Session.beforeScripts sources s r).ScriptsTell sources lines) :
    Keeps sources
      ((if (afterEvents sources s r).world.pendingScript.isSome then [] else told) ++ lines)
      (frame sources s) := by
  obtain ⟨lines', htell', hkeeps, -⟩ := (h.beforeScripts r).exists_tell htell.scriptsReturn
  obtain rfl := htell.unique htell'
  obtain ⟨status, t, w⟩ := r
  rw [frame_eq hevents]
  exact hkeeps.answerCalls.of_eq rfl

theorem load {config : SessionConfig} {path : String} {lines : List Line}
    (hload : load sources config path = (lines, .ok s)) : Keeps sources [] s := by
  have hopening : ∀ w, (opening sources config w).scripts = none := by
    intro w
    unfold opening
    dsimp only
    split <;> rfl
  obtain ⟨_, first, line, _, rfl⟩ := exists_load_eq hload
  have hopened := hopening (World.ofScene first)
  cases first.script with
  | none => exact of_none (Nat.zero_le 1) hopened
  | some script =>
      have hstarted : Keeps sources [] _ := of_started (.startScripts script hopened)
      exact hstarted.of_eq rfl

theorem shutdown (h : Keeps sources told s) : Keeps sources told s.shutdown := by
  refine of_none h.length_le ?_
  have hclosed := s.scripts_closeScripts
  unfold Session.shutdown
  dsimp only
  split <;> exact hclosed

end Keeps

theorem Told.keeps [Interpreter.Contract] {sources : Sources} {told : List String} {s : Session}
    (h : Told sources told s) : Keeps sources told s := by
  induction h with
  | loaded hload => exact .load hload
  | press c _ ih => exact ih.of_eq rfl
  | walkTo p _ ih => exact ih.of_eq rfl
  | frame _ hevents htell ih => exact ih.frame hevents htell
  | shutdown _ ih => exact ih.shutdown

/-- In every session over any scenes and scripts, after every frame and before the first one, the
scripts retain no context, and at most one line has been logged of what their entry thread has
returned. In a frame that returns, a line is logged behind what the threads have logged exactly if
the entry thread, which is resumed once, comes to the end of its function there without having
stopped itself, and a value that it returns has a JSON form; the thread is gone with this tick, as
it is when it has stopped itself or failed, of which nothing is logged. Scripts without an entry
thread log nothing of their own, nor do scripts that are closed because the scene has changed or the
session is shut down; in the frame in which the scene has changed, only new scripts run. -/
theorem results_logged_once [Interpreter.Contract] {sources : Sources} {told : List String}
    {s : Session} (h : Told sources told s) :
    told.length ≤ 1 ∧ (∀ scripts ∈ s.scripts, scripts.scheduler.retainedCount = 0) ∧
      (∀ r, FrameReturns sources s r → ∃ lines,
        let met := beforeScripts sources s r
        met.ScriptsTell sources lines ∧
          (∀ scripts ∈ met.scripts,
            scripts.Accounts (sources.clock met.frames) met.reach lines) ∧
          ((afterEvents sources s r).world.pendingScript.isSome → Started sources met)) ∧
      ∀ s' : Session, s'.closeScripts.scripts = none ∧
        s'.closeScripts.world.chronicle.log = s'.world.chronicle.log := by
  have hkeeps := h.keeps
  refine ⟨hkeeps.length_le, ?_, ?_, fun s' => ⟨scripts_closeScripts s', log_closeScripts s'⟩⟩
  · intro scripts hscripts
    obtain ⟨watchdog, path, r, hlives⟩ := hkeeps.lives scripts hscripts
    exact hlives.tended.retainedCount
  · intro r hreturns
    obtain ⟨lines, htell, -, haccounts⟩ := (hkeeps.beforeScripts r).exists_tell hreturns.scripts
    exact ⟨lines, htell, haccounts, .beforeScripts⟩

end

/-! ## A vault that is opened -/

/-- A script that leaves another thread behind and returns two texts. -/
def vaultScript : Script.Chunk where
  functions := [(SceneScripts.entryName,
    [.call "create_thread" [.function [.yield []]],
      .return [.text "opened".toUTF8, .text "vault".toUTF8]])]
  main := []

/-- A scene with the script. -/
def vaultSources : Sources where
  scene _ := ([], .ok { scenery [] with script := some "vault.script" })
  script _ := .ok (some vaultScript)

/-- In the first frame the entry thread returns, and what it has returned is logged. The other
thread goes on, and nothing is retained. -/
theorem results_logged_once_vault :
    ∃ s, Told vaultSources ["script.start returned opened vault"] s ∧
      ∀ scripts ∈ s.scripts, scripts.scheduler.retainedCount = 0 := by
  have hplay : ∃ s r, load vaultSources .standard "vault.json" = ([], .ok s) ∧
      Returns vaultSources s r ∧ (afterEvents vaultSources s r).world.pendingScript = none ∧
      ∃ scripts, (beforeScripts vaultSources s r).scripts = some scripts ∧
        let b := beforeScripts vaultSources s r
        let met := b.scriptState vaultSources scripts
        (∃ q, Scheduler.Runs machine 0 scripts.scheduler met q) ∧
        ∃ t, scripts.entry = some t.id ∧ scripts.scheduler.threads[0]? = some t ∧
          Interpreter.Contract.fate t.context (scripts.scheduler.watchdog.arm (machine.now met))
            met = .returned [some (.string "opened"), some (.string "vault")] := by
    refine ⟨_, _, rfl, .ended rfl, rfl, _, rfl, ⟨_, .more rfl (.more rfl (.done rfl))⟩, ?_⟩
    exact ⟨_, rfl, rfl, rfl⟩
  obtain ⟨s, r, hload, hevents, hpending, scripts, hscripts, ⟨q, hruns⟩, t, hentry, hthread,
    hfate⟩ := hplay
  have hmeets : scripts.EntryMeets _ (beforeScripts vaultSources s r).reach _ :=
    ⟨t, _, ⟨hentry, 0, _, rfl, hthread, rfl⟩, hfate⟩
  have hreturns : FrameReturns vaultSources s r := ⟨hevents, fun scripts' hscripts' => by
    obtain rfl := Option.some.inj (hscripts.symm.trans hscripts')
    exact ⟨q, hruns⟩⟩
  have hbegun : Told vaultSources [] s := .loaded hload
  obtain ⟨-, -, hframes, -⟩ := results_logged_once hbegun
  obtain ⟨lines, htell, haccounts, -⟩ := hframes r hreturns
  have hlines := (haccounts scripts hscripts).eq_of_entryMeets hmeets
  have htold := hbegun.frame hevents htell
  rw [hpending, hlines] at htold
  obtain ⟨-, hretained, -⟩ := results_logged_once htold
  exact ⟨_, htold, hretained⟩

/-! ## A thread that is late -/

/-- A script that rings a bell and then goes on for ever. -/
def ringingScript : Script.Chunk where
  functions := [(SceneScripts.entryName,
    [.call "set_flag" [.text "bell".toUTF8], .while (.boolean true) []])]
  main := []

/-- A scene with the script, on a clock that is a second ahead whenever it is looked at. -/
def ringingSources : Sources where
  scene _ := ([], .ok { scenery [] with script := some "bell.script" })
  script _ := .ok (some ringingScript)
  clock _ looks := looks * 1000000000

/-- In the first frame the entry thread is late. What it has done until then stays done. -/
example : ∃ s r scripts t, load ringingSources .standard "bell.json" = ([], .ok s) ∧
    Returns ringingSources s r ∧ (beforeScripts ringingSources s r).scripts = some scripts ∧
    scripts.scheduler.threads[0]? = some t ∧
    let met := (beforeScripts ringingSources s r).scriptState ringingSources scripts
    let d := scripts.scheduler.watchdog.arm (machine.now met)
    Interpreter.Contract.fate t.context d met = .stopped ∧
      (Interpreter.reach (machine.resume t.context d met).2.2).chronicle.flags.has "bell" = true :=
  ⟨_, _, _, _, rfl, .ended rfl, rfl, rfl, rfl, rfl⟩

end Session

end Cutscene
