import Cutscene.Proofs.Session.Attending
import Cutscene.Proofs.Session.Gates

/-!
# What scripts call in a session

Scripts act in a session when they are loaded, with the session or when the scene has changed, and
when they run. What they call can be told for each of these (`loadHostCalls`, `followHostCalls`,
`ScriptsCall`), and a frame makes first the calls of the script of a new scene and then those of the
scripts that run.

Apart from the events of a frame and what the player does, nothing but these calls changes flags and
log, and what the entry thread has returned is logged. So whatever a relation says of calls one
after the other (`Chronicle.Follows`) holds of what is done before the first frame and of what
follows the events of a frame (`Session.follows_load`, `Session.follows_frame`).
-/

namespace Cutscene

/-- What becomes of a chronicle with some calls is what becomes of it with one after the other. The
journal does not count, nor does it count that results are logged. -/
structure Chronicle.Follows (R : List HostCall → Chronicle → Chronicle → Prop) : Prop where
  silent : ∀ {c c' : Chronicle}, c'.flags = c.flags → c'.log = c.log → R [] c c'
  trans : ∀ {calls calls' : List HostCall} {c c' c'' : Chronicle},
    R calls c c' → R calls' c' c'' → R (calls ++ calls') c c''
  call : ∀ (x : HostCall) (r : Reach), R [x] r.chronicle (x.act r).chronicle
  returned : ∀ (c : Chronicle) (label values : String),
    R [] c (c.record s!"script.{label} returned {values}")

namespace Chronicle.Follows

variable {R : List HostCall → Chronicle → Chronicle → Prop} {calls : List HostCall}
  {c c' c'' : Chronicle}

theorem reach (h : Follows R) :
    Reach.Follows fun calls r r' => R calls r.chronicle r'.chronicle where
  silent hsame := h.silent hsame.flags hsame.log
  trans := h.trans
  call := h.call

/-- And nothing more is called. -/
theorem on (h : Follows R) (hfirst : R calls c c') (hrest : R [] c' c'') : R calls c c'' := by
  rw [← List.append_nil calls]
  exact h.trans hfirst hrest

end Chronicle.Follows

namespace Session

variable [Interpreter] [Interpreter.Contract] (sources : Sources)

/-- What the script of a new scene calls when it is loaded. -/
def swapHostCalls (script : Option String) (s : Session) : List HostCall :=
  script.elim [] fun path =>
    SceneScripts.startHostCalls sources path { s.closeScripts with calls := #[] }.reach

/-- What the script of a new scene calls when it is loaded, if the scene has changed. -/
def followHostCalls (s : Session) : List HostCall :=
  match s.world.takePendingScript with
  | (some script, world) => swapHostCalls sources script { s with world }
  | (none, _) => []

/-- The tick of the scripts returns, and they call some functions. -/
def ScriptsCall (s : Session) (calls : List HostCall) : Prop :=
  match s.scripts with
  | some scripts => ∃ q, scripts.TicksCalling (sources.clock s.frames) s.reach calls q
  | none => calls = []

/-- What the script of the first scene calls when it is loaded. -/
def loadHostCalls (config : SessionConfig) (first : Scene) : List HostCall :=
  first.script.elim [] fun path =>
    SceneScripts.startHostCalls sources path
      (opening sources config (World.ofScene first)).reach

theorem ScriptsReturn.exists_calls {s : Session} (h : s.ScriptsReturn sources) :
    ∃ calls, s.ScriptsCall sources calls := by
  unfold ScriptsCall
  cases hscripts : s.scripts with
  | none => exact ⟨[], rfl⟩
  | some scripts =>
      obtain ⟨q, hruns⟩ := h scripts hscripts
      obtain ⟨calls, hticks⟩ := hruns.exists_doing Interpreter.Contract.resumeCalls
      exact ⟨calls, q, hticks⟩

/-! ## What follows the calls -/

section

variable {sources} {R : List HostCall → Chronicle → Chronicle → Prop} (h : Chronicle.Follows R)

include h

theorem follows_startScripts (path : String) (s : Session) :
    R (SceneScripts.startHostCalls sources path s.reach) s.world.chronicle
      (s.startScripts sources path).2.world.chronicle := by
  have hstarted := SceneScripts.start_follows h.reach sources s.config.watchdog path s.reach
  unfold startScripts
  dsimp only
  split
  · exact hstarted
  · exact hstarted

theorem follows_closeScripts (s : Session) :
    R [] s.world.chronicle s.closeScripts.world.chronicle := by
  unfold closeScripts
  split
  · rename_i scripts _
    exact SceneScripts.close_within h.reach.compares scripts s.reach
  · exact h.silent rfl rfl

theorem follows_swapScripts (script : Option String) (s : Session) :
    R (swapHostCalls sources script s) s.world.chronicle
      (s.swapScripts sources script).world.chronicle := by
  have hclosed := follows_closeScripts h s
  unfold swapScripts
  dsimp only
  split
  · exact hclosed
  · rename_i path
    have hstarted : R (swapHostCalls sources (some path) s) s.world.chronicle
        (startScripts sources path { s.closeScripts with calls := #[] }).2.world.chronicle :=
      h.trans hclosed (follows_startScripts h path _)
    split
    · rename_i heq
      rwa [heq] at hstarted
    · rename_i heq
      rw [heq] at hstarted
      exact h.on hstarted (h.silent rfl rfl)

theorem follows_followScene (s : Session) :
    R (followHostCalls sources s) s.world.chronicle (s.followScene sources).world.chronicle := by
  unfold followHostCalls followScene World.takePendingScript
  cases s.world.pendingScript with
  | none => exact h.silent rfl rfl
  | some script =>
      exact follows_swapScripts h script
        { s with world := { s.world with pendingScript := none } }

theorem follows_runScripts {s : Session} {calls : List HostCall}
    (hticks : s.ScriptsCall sources calls) :
    R calls s.world.chronicle (s.runScripts sources).world.chronicle := by
  unfold ScriptsCall at hticks
  unfold runScripts
  split
  · rename_i scripts hscripts
    rw [hscripts] at hticks
    obtain ⟨q, hticks⟩ := hticks
    exact SceneScripts.tick_follows h.reach (fun r => h.returned r.chronicle) hticks
  · rename_i hscripts
    rw [hscripts] at hticks
    obtain rfl := hticks
    exact h.silent rfl rfl

omit [Interpreter.Contract] in
theorem follows_answerCalls (s : Session) :
    R [] s.world.chronicle (s.answerCalls sources).world.chronicle := by
  obtain ⟨tracker, journal, heq⟩ := called_answerCalls sources s
  rw [heq]
  exact h.silent rfl rfl

/-- What follows the events of a frame and the closing of an idle box does no more than what is
called. -/
theorem follows_frame {s : Session} {r : TickStatus × Tracker × World} {ticked : List HostCall}
    (hreturns : Returns sources s r)
    (hticked : (beforeScripts sources s r).ScriptsCall sources ticked) :
    R (followHostCalls sources (afterEvents sources s r) ++ ticked)
      (afterEvents sources s r).world.chronicle (frame sources s).world.chronicle := by
  obtain ⟨status, t, w⟩ := r
  rw [frame_eq hreturns]
  exact h.on (h.trans (follows_followScene h _) (follows_runScripts h hticked))
    (follows_answerCalls h _)

/-- What is done before the first frame does no more to the flags and the log of the scene than what
is called. -/
theorem follows_load {config : SessionConfig} {path : String} {lines lines' : List Line}
    {first : Scene} {s : Session} (hfirst : sources.scene path = (lines', .ok first))
    (hload : load sources config path = (lines, .ok s)) :
    R (loadHostCalls sources config first) (World.ofScene first).chronicle s.world.chronicle := by
  have hopened : R [] (World.ofScene first).chronicle
      (opening sources config (World.ofScene first)).world.chronicle := by
    unfold opening
    dsimp only
    split <;> exact h.silent rfl rfl
  obtain ⟨_, _, line, hfirst', rfl⟩ := exists_load_eq hload
  obtain rfl := Except.ok.inj (Prod.mk.inj (hfirst.symm.trans hfirst')).2
  unfold loadHostCalls
  cases first.script with
  | none => exact h.on hopened (h.silent rfl rfl)
  | some script =>
      exact h.on (h.trans hopened (follows_startScripts h script _)) (h.silent rfl rfl)

end

end Session

end Cutscene
