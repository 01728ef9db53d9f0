import Cutscene.Proofs.Script.Contract
import Cutscene.Proofs.Session.Calling
import Cutscene.Proofs.Session.SceneChanges
import Cutscene.Proofs.Tracker.Tallies
import Cutscene.Proofs.World.Replay

/-!
# The log explains the flags

Flags are changed by operations of events, by triggers, by scripts and by scenes that are entered,
and each of them logs on its own what it has changed. If no script logs anything else, then the log
of a session is a full account of its flags: replayed from the flags of the first scene, with the
scenes that have been entered since, it gives the flags of now (`log_explains_flags`).

`Chronicled` is a session with what the replay needs to know of its past: the scenes that it has
entered, turn by turn, and the functions that its scripts have called.
-/

namespace Cutscene

/-! ## Scripts -/

/-- Every call explains what it does to the flags, but for one that logs what it is given. -/
theorem HostCall.explains {x : HostCall} (h : ∀ entry, x ≠ .logEvent entry) (r : Reach) :
    r.chronicle.Explains [] (x.act r).chronicle := by
  cases x with
  | setFlag name => exact .setFlag name _
  | unsetFlag name => exact .unsetFlag name _
  | callEvent name => exact .of_eq rfl rfl
  | logEvent entry => exact absurd rfl (h entry)

/-- So do calls of which none logs what it is given. -/
theorem Chronicle.follows_explains :
    Follows fun calls c c' => (∀ x ∈ calls, ∀ entry, x ≠ .logEvent entry) → c.Explains [] c' where
  silent hflags hlog _ := .of_eq hflags hlog
  trans hfirst hrest hcalls :=
    (hfirst fun x hx => hcalls x (List.mem_append_left _ hx)).trans
      (hrest fun x hx => hcalls x (List.mem_append_right _ hx))
  call x r hcalls := HostCall.explains (hcalls x List.mem_cons_self) r
  returned c label values _ := .record (by simp [Replay.IsPlain, toString]) c

/-! ## Turns -/

namespace Tracker

variable {load : String → Reported Scene} {now : Nat}

/-- The scene that the next turn enters, if it enters one. -/
def entering (load : String → Reported Scene) (c : Tracker × World) : List Scene :=
  match settle c.1.frames with
  | [] => []
  | f :: _ => match f.operation? with
    | some (.sceneLoad path _) => (c.2.entered? load path).toList
    | _ => []

/-- What a turn logs explains what becomes of the flags, with the scene that it enters. -/
theorem explains_turn (load : String → Reported Scene) (now : Nat) (c : Tracker × World) :
    c.2.chronicle.Explains (entering load c)
      (turn (World.stage load) now c.1 c.2).left.2.chronicle := by
  obtain ⟨⟨fs, voices⟩, w⟩ := c
  unfold entering
  cases hsettle : settle fs with
  | nil =>
      rw [left_turn_idle hsettle]
      exact .refl _
  | cons f below =>
      obtain ⟨op, hop, -, hleaves⟩ :=
        exists_left (World.stage load) now (t := ⟨fs, voices⟩) hsettle w
      dsimp only
      rw [hop]
      rw [hleaves.value_eq (v := fun w' => w.chronicle.Explains _ w'.chronicle) fun _ _ => rfl]
      cases hscene : op.loadsScene with
      | false =>
          have hperformed : w.chronicle.Explains []
              (f.perform (World.stage load) now op voices w).state.chronicle :=
            (World.stage_keeps_explains load [] w.chronicle).perform hscene (.refl _)
          cases op with
          | sceneLoad path door => cases hscene
          | _ => exact hperformed
      | true =>
          cases op with
          | sceneLoad path door =>
              obtain ⟨said, journal, -, hstate⟩ :=
                exists_perform_sceneLoad load f now path door voices w
              rw [hstate]
              exact World.explains_loadScene load path door (w.withJournal said)
          | _ => cases hscene

end Tracker

/-! ## Sessions -/

namespace Session

section

variable [Interpreter]

/-- What is logged explains what becomes of the flags, while some scenes are entered. -/
def Explains (scenes : List Scene) (s s' : Session) : Prop :=
  s.world.chronicle.Explains scenes s'.world.chronicle

namespace Explains

variable {scenes : List Scene} {s s' s'' : Session}

theorem of_eq (hflags : s'.world.chronicle.flags = s.world.chronicle.flags)
    (hlog : s'.world.chronicle.log = s.world.chronicle.log) : Explains [] s s' :=
  Chronicle.Explains.of_eq hflags hlog

theorem on (h : Explains scenes s s') (h' : Explains [] s' s'') : Explains scenes s s'' :=
  Chronicle.Explains.on h h'

variable (sources : Sources)

theorem call (e : Event) (s : Session) : Explains [] s (s.call sources e) := by
  obtain ⟨journal, heq⟩ := exists_call_eq sources e s
  rw [heq]
  exact of_eq rfl rfl

theorem takeWalk (s : Session) : Explains [] s (s.takeWalk sources) := by
  unfold Session.takeWalk
  split
  · rename_i p _
    have hfired := World.explains_fireTrigger .touch p { s.world with player := p }
    unfold walk
    split
    · exact of_eq rfl rfl
    · split
      · rename_i hfires
        rw [hfires] at hfired
        exact Chronicle.Explains.on hfired (call sources _ _)
      · rename_i hfires
        rw [hfires] at hfired
        exact hfired
  · exact of_eq rfl rfl

theorem pushButton (s : Session) : Explains [] s (s.pushButton sources) := by
  have hfired := World.explains_fireTrigger .button s.world.player s.world
  unfold Session.pushButton
  split
  · split
    · rename_i hfires
      rw [hfires] at hfired
      exact Chronicle.Explains.on hfired (call sources _ _)
    · rename_i hfires
      rw [hfires] at hfired
      exact hfired
  · exact of_eq rfl rfl

theorem beginFrame (s : Session) : Explains [] s (s.beginFrame sources) :=
  (takeWalk sources s).on (pushButton sources _)

theorem closeIdleBox (status : TickStatus) (s : Session) :
    Explains [] s (closeIdleBox status s) := by
  unfold Session.closeIdleBox
  split
  · exact s.world.explains_closeBox
  · exact of_eq rfl rfl

theorem shutdown [Interpreter.Contract] (s : Session) : Explains [] s s.shutdown := by
  have hclosed : Explains [] s { s.closeScripts with tracker := .empty } :=
    follows_closeScripts Chronicle.follows_explains s (by simp)
  unfold Session.shutdown
  dsimp only
  split
  · exact hclosed.on (World.explains_closeBox _)
  · exact hclosed

end Explains

/-! ## Scenes that are entered and functions that are called -/

section

variable [Interpreter.Contract] (sources : Sources)

/-- The next frame returns: its events enter some scenes, and scripts call some functions. -/
structure FrameTells (s : Session) (r : TickStatus × Tracker × World) (scenes : List Scene)
    (calls : List HostCall) : Prop where
  events : Tracker.RunsDoing (stage sources) (beginFrame sources s).now
    (Tracker.entering sources.scene) (beginFrame sources s).tracker (beginFrame sources s).world
    scenes r
  scripts : ∃ ticked, (beforeScripts sources s r).ScriptsCall sources ticked ∧
    calls = followHostCalls sources (afterEvents sources s r) ++ ticked

/-- Every frame that returns enters some scenes, and scripts call some functions in it. -/
theorem FrameReturns.exists_tells {s : Session} {r : TickStatus × Tracker × World}
    (h : FrameReturns sources s r) : ∃ scenes calls, FrameTells sources s r scenes calls := by
  obtain ⟨scenes, hevents⟩ := Tracker.Runs.exists_doing (Tracker.entering sources.scene) h.events
  obtain ⟨calls, hcalls⟩ := h.scripts.exists_calls
  exact ⟨scenes, _, hevents, calls, hcalls, rfl⟩

/-- A session that has begun with a scene, with the scenes that it has entered since, the oldest
first, and all functions that its scripts have called. -/
inductive Chronicled (first : Scene) : List Scene → List HostCall → Session → Prop
  | loaded {config : SessionConfig} {path : String} {lines lines' : List Line} {s : Session}
      (hfirst : sources.scene path = (lines', .ok first))
      (hload : load sources config path = (lines, .ok s)) :
      Chronicled first [] (loadHostCalls sources config first) s
  | press {scenes : List Scene} {calls : List HostCall} {s : Session} (c : Control)
      (hs : Chronicled first scenes calls s) : Chronicled first scenes calls (s.press c)
  | walkTo {scenes : List Scene} {calls : List HostCall} {s : Session} (p : Point)
      (hs : Chronicled first scenes calls s) : Chronicled first scenes calls (s.walkTo p)
  | frame {scenes scenes' : List Scene} {calls calls' : List HostCall} {s : Session}
      {r : TickStatus × Tracker × World} (hs : Chronicled first scenes calls s)
      (htells : FrameTells sources s r scenes' calls') :
      Chronicled first (scenes ++ scenes') (calls ++ calls') (frame sources s)
  | shutdown {scenes : List Scene} {calls : List HostCall} {s : Session}
      (hs : Chronicled first scenes calls s) : Chronicled first scenes calls s.shutdown

variable {sources} {first : Scene} {scenes : List Scene} {calls : List HostCall} {s : Session}

namespace Explains

/-- What is logged in a frame explains what becomes of the flags. -/
theorem frame {r : TickStatus × Tracker × World} (htells : FrameTells sources s r scenes calls)
    (hcalls : ∀ x ∈ calls, ∀ entry, x ≠ .logEvent entry) : Explains scenes s (frame sources s) := by
  obtain ⟨ticked, hticked, rfl⟩ := htells.scripts
  have hevents : (Session.beginFrame sources s).world.chronicle.Explains scenes
      r.2.2.chronicle :=
    htells.events.relates (R := fun ds w w' => w.chronicle.Explains ds w'.chronicle)
      (fun h h' => h.trans h') (Tracker.explains_turn sources.scene _)
  have hafter : Explains scenes s (afterEvents sources s r) :=
    (Chronicle.Explains.trans (beginFrame sources s) hevents).on (closeIdleBox r.1 _)
  exact hafter.on (follows_frame Chronicle.follows_explains htells.events.runs hticked hcalls)

end Explains

/-- What has been logged explains the flags of a session that has begun with a scene. -/
theorem Chronicled.explains (h : Chronicled sources first scenes calls s)
    (hcalls : ∀ x ∈ calls, ∀ entry, x ≠ .logEvent entry) :
    (World.ofScene first).chronicle.Explains scenes s.world.chronicle := by
  induction h with
  | loaded hfirst hload => exact follows_load Chronicle.follows_explains hfirst hload hcalls
  | press c _ ih => exact ih hcalls
  | walkTo p _ ih => exact ih hcalls
  | frame _ htells ih =>
      exact (ih fun x hx => hcalls x (List.mem_append_left _ hx)).trans
        (Explains.frame htells fun x hx => hcalls x (List.mem_append_right _ hx))
  | @shutdown _ _ s _ ih => exact (ih hcalls).on (Explains.shutdown s)

/-- If the scripts of a session have never called the function that logs what it is given, then the
log is a full account of the flags: replayed from the flags of the first scene, with the scenes that
have been entered since, it gives the flags that are set now. No flag is logged as set that was set
already, and none as unset that was not set. -/
theorem log_explains_flags (h : Chronicled sources first scenes calls s)
    (hcalls : ∀ x ∈ calls, ∀ entry, x ≠ .logEvent entry) :
    let begun : Replay := ⟨.ofList first.flags, scenes⟩
    let log := s.world.chronicle.log.toList
    begun.readAll? log = some ⟨s.world.chronicle.flags, []⟩ ∧
      ∀ before flag after,
        (log = before ++ s!"flag.set {flag}" :: after →
          ∃ r, begun.readAll? before = some r ∧ r.flags.has flag = false) ∧
        (log = before ++ s!"flag.unset {flag}" :: after →
          ∃ r, begun.readAll? before = some r ∧ r.flags.has flag = true) := by
  intro begun log
  have hread : begun.readAll? log = some ⟨s.world.chronicle.flags, []⟩ := by
    obtain ⟨entries, hlog, hread⟩ := h.explains hcalls
    obtain ⟨journal, player, hentered⟩ := World.exists_enter_eq first none .blank
    rw [World.ofScene, hentered] at hlog hread
    have hall := hread []
    rw [List.append_nil] at hall
    rw [show log = entries from hlog]
    exact hall
  refine ⟨hread, fun before flag after => ⟨fun hlog => ?_, fun hlog => ?_⟩⟩
  · rw [hlog] at hread
    obtain ⟨r, hbefore, hset⟩ := Replay.exists_of_readAll?_append hread
    refine ⟨r, hbefore, ?_⟩
    rw [Replay.read?_set] at hset
    split at hset
    · cases hset
    · rename_i hunset
      exact Bool.eq_false_iff.2 hunset
  · rw [hlog] at hread
    obtain ⟨r, hbefore, hunset⟩ := Replay.exists_of_readAll?_append hread
    refine ⟨r, hbefore, ?_⟩
    rw [Replay.read?_unset] at hunset
    split at hunset
    · assumption
    · cases hunset

end

end

/-! ## A climb in the rain -/

/-- A script that sets a flag when it is loaded and unsets another when it runs. -/
def rainScript : Script.Chunk where
  functions := [(SceneScripts.entryName, [.call "unset_flag" [.text "rain".toUTF8], .yield []])]
  main := [.call "set_flag" [.text "bell".toUTF8]]

/-- A hall where somebody is met, and from where it goes on to a tower. -/
def rainyHall : Scene :=
  { scenery [.flagSet "met", .sceneLoad "tower.json" none] with
    flags := ["rain"]
    script := some "rain.script" }

/-- A tower with a flag of its own and the same script. -/
def highTower : Scene :=
  { scenery [] with
    name := "tower"
    flags := ["high"]
    script := some "rain.script" }

/-- The hall and the tower. -/
def climbSources : Sources where
  scene path := ([], .ok (if path = "scene.json" then rainyHall else highTower))
  script _ := .ok (some rainScript)

/-- In the first frame the scene changes from the hall to the tower. The script sets its flag in
both of them, and in the tower it unsets the flag of the hall. -/
theorem log_explains_flags_climb :
    ∃ calls s, Chronicled climbSources rainyHall [highTower] calls s ∧
      calls = [.setFlag "bell", .setFlag "bell", .unsetFlag "rain"] ∧
      (∀ x ∈ calls, ∀ entry, x ≠ .logEvent entry) ∧
      let begun : Replay := ⟨.ofList ["rain"], [highTower]⟩
      let log := s.world.chronicle.log.toList
      begun.readAll? log = some ⟨s.world.chronicle.flags, []⟩ ∧
        ∀ before flag after,
          (log = before ++ s!"flag.set {flag}" :: after →
            ∃ r, begun.readAll? before = some r ∧ r.flags.has flag = false) ∧
          (log = before ++ s!"flag.unset {flag}" :: after →
            ∃ r, begun.readAll? before = some r ∧ r.flags.has flag = true) := by
  have hplay : ∃ s r calls, load climbSources .standard "scene.json" = ([], .ok s) ∧
      FrameTells climbSources s r [highTower] calls ∧
      loadHostCalls climbSources .standard rainyHall ++ calls =
        [.setFlag "bell", .setFlag "bell", .unsetFlag "rain"] := by
    refine ⟨_, _, _, rfl, ⟨.more rfl (.more rfl (.ended rfl)), _, ⟨_, .more rfl rfl (.done rfl)⟩,
      rfl⟩, ?_⟩
    decide +kernel
  obtain ⟨s, r, calls, hload, htells, hcalls⟩ := hplay
  have hchronicled := Chronicled.frame (.loaded rfl hload) htells
  have hquiet : ∀ x ∈ loadHostCalls climbSources .standard rainyHall ++ calls,
      ∀ entry, x ≠ .logEvent entry := by
    rw [hcalls]
    simp
  exact ⟨_, _, hchronicled, hcalls, hquiet, log_explains_flags hchronicled hquiet⟩

end Session

end Cutscene
