import Cutscene.Proofs.Session.Playing
import Cutscene.Proofs.Session.SceneChanges

/-!
# Frames that load a scene

A world remembers the script of the scene that it has entered until the session takes it, after the
tick. Nothing else that is asked of a world touches what it remembers. So after a tick a script is
pending exactly if one was before or some turn of the tick has loaded a scene
(`Tracker.Runs.pendingScript_iff`), and in a session none is pending before a frame.
-/

namespace Cutscene

namespace World

/-! ## The script that is pending -/

/-- Nothing that is asked of a world but a change of scene touches the pending script. -/
theorem stage_keeps_pendingScript (load : String → Reported Scene)
    (script : Option (Option String)) : (stage load).Keeps (·.pendingScript = script) :=
  .of_value (stage_keeps_setting load) fun _ _ hsetting h =>
    (congrArg Setting.pendingScript hsetting).trans h

theorem pendingScript_fireTrigger (kind : TriggerKind) (p : Point) (w : World) :
    (w.fireTrigger kind p).2.pendingScript = w.pendingScript :=
  congrArg Setting.pendingScript (setting_fireTrigger kind p w)

end World

/-! ## Turns and ticks -/

namespace Tracker

variable {load : String → Reported Scene} {now : Nat}

/-- The next turn loads a scene. -/
def LoadsScene (load : String → Reported Scene) (c : Tracker × World) : Prop :=
  ∃ f below path door lines scene, settle c.1.frames = f :: below ∧
    f.operation? = some (.sceneLoad path door) ∧
    load (Text.Path.join c.2.directory path) = (lines, .ok scene)

/-- A turn that loads a scene leaves a script pending. -/
theorem pendingScript_of_loadsScene (now : Nat) {c : Tracker × World} (h : LoadsScene load c) :
    (turn (World.stage load) now c.1 c.2).left.2.pendingScript.isSome = true := by
  obtain ⟨f, below, path, door, lines, scene, hsettle, hop, hload⟩ := h
  obtain ⟨said, journal, -, hstate⟩ :=
    exists_perform_sceneLoad load f now path door c.1.voices c.2
  obtain ⟨journal', hloaded⟩ := World.exists_loadScene_of_ok (w := c.2.withJournal said) hload door
  have hpending : ∀ w : World,
      ((w.enter scene door).withJournal journal).pendingScript = some scene.script :=
    World.pendingScript_enter scene door
  rw [turn_sceneLoad hsettle hop c.2, Turn.left, hstate, hloaded]
  dsimp only
  rw [hpending]
  rfl

/-- Every other turn leaves pending what was. -/
theorem pendingScript_of_not_loadsScene (now : Nat) {c : Tracker × World}
    (h : ¬LoadsScene load c) :
    (turn (World.stage load) now c.1 c.2).left.2.pendingScript = c.2.pendingScript := by
  obtain ⟨⟨fs, voices⟩, w⟩ := c
  cases hsettle : settle fs with
  | nil => rw [left_turn_idle hsettle]
  | cons f below =>
      obtain ⟨op, hop, -, hleaves⟩ := exists_left (World.stage load) now
        (show settle (Tracker.frames ⟨fs, voices⟩) = f :: below from hsettle) w
      have hperformed :
          (f.perform (World.stage load) now op voices w).state.pendingScript = w.pendingScript := by
        cases hscene : op.loadsScene with
        | false => exact (World.stage_keeps_pendingScript load _).perform hscene rfl
        | true =>
            cases op with
            | sceneLoad path door =>
                rcases hload : load (Text.Path.join w.directory path) with ⟨lines, error | scene⟩
                · obtain ⟨said, journal, -, hstate⟩ :=
                    exists_perform_sceneLoad load f now path door voices w
                  obtain ⟨journal', hloaded⟩ :=
                    World.exists_loadScene_of_error (w := w.withJournal said) hload door
                  rw [hstate, hloaded]
                  rfl
                · exact absurd ⟨f, below, path, door, lines, scene, hsettle, hop, hload⟩ h
            | _ => cases hscene
      have hleft : (turn (World.stage load) now ⟨fs, voices⟩ w).left.2.pendingScript = _ :=
        hleaves.value_eq fun _ _ => rfl
      exact hleft.trans hperformed

/-- After a tick a script is pending exactly if one was before or a turn has loaded a scene. -/
theorem Runs.pendingScript_iff {t : Tracker} {w : World} {r : TickStatus × Tracker × World}
    (h : Runs (World.stage load) now t w r) : r.2.2.pendingScript.isSome = true ↔
      w.pendingScript.isSome = true ∨
        ∃ c, Relation.ReflTransGen (Goes (World.stage load) now) (t, w) c ∧ LoadsScene load c := by
  induction h with
  | @ended t t' w w' status hturn =>
      by_cases hloads : LoadsScene load (t, w)
      · have hsome := pendingScript_of_loadsScene now hloads
        rw [hturn] at hsome
        exact iff_of_true hsome (.inr ⟨_, .refl, hloads⟩)
      · have hsame := pendingScript_of_not_loadsScene now hloads
        rw [hturn] at hsame
        rw [show w'.pendingScript = w.pendingScript from hsame]
        refine ⟨.inl, ?_⟩
        rintro (hsome | ⟨c, hpath, hc⟩)
        · exact hsome
        · rw [eq_of_path_of_ended hturn hpath] at hc
          exact absurd hc hloads
  | @more t t' w w' r hturn _ ih =>
      have hgo : Goes (World.stage load) now (t, w) (t', w') := hturn
      rw [ih]
      by_cases hloads : LoadsScene load (t, w)
      · have hsome := pendingScript_of_loadsScene now hloads
        rw [hturn] at hsome
        exact iff_of_true (.inl hsome) (.inr ⟨_, .refl, hloads⟩)
      · have hsame := pendingScript_of_not_loadsScene now hloads
        rw [hturn] at hsame
        rw [show w'.pendingScript = w.pendingScript from hsame]
        refine or_congr_right ⟨?_, ?_⟩
        · rintro ⟨c, hpath, hc⟩
          exact ⟨c, .head hgo hpath, hc⟩
        · rintro ⟨c, hpath, hc⟩
          rcases eq_or_path_of_more hturn hpath with rfl | hrest
          · exact absurd hc hloads
          · exact ⟨c, hrest, hc⟩

end Tracker

/-! ## Frames -/

namespace Session

variable [Interpreter] (sources : Sources)

/-- The tick of the next frame loads a scene. -/
def LoadsScene (s : Session) : Prop :=
  let b := beginFrame sources s
  ∃ c, Relation.ReflTransGen (Tracker.Goes (stage sources) b.now) (b.tracker, b.world) c ∧
    Tracker.LoadsScene sources.scene c

/-- What scripts and calls change of a session: the world but for its chronicle is the same, and no
frame has been played. -/
structure Beside (s s' : Session) : Prop where
  world : ∃ chronicle, s'.world = { s.world with chronicle }
  frames : s'.frames = s.frames

namespace Beside

variable {s s' s'' : Session}

theorem of_world {chronicle : Chronicle} (hworld : s'.world = { s.world with chronicle })
    (hframes : s'.frames = s.frames) : Beside s s' := ⟨⟨chronicle, hworld⟩, hframes⟩

theorem refl (s : Session) : Beside s s := of_world rfl rfl

theorem trans (h : Beside s s') (h' : Beside s' s'') : Beside s s'' := by
  obtain ⟨chronicle, hworld⟩ := h.world
  obtain ⟨chronicle', hworld'⟩ := h'.world
  rw [hworld] at hworld'
  exact of_world hworld' (h'.frames.trans h.frames)

theorem pendingScript (h : Beside s s') : s'.world.pendingScript = s.world.pendingScript := by
  obtain ⟨chronicle, hworld⟩ := h.world
  rw [hworld]

theorem library (h : Beside s s') : s'.world.library = s.world.library := by
  obtain ⟨chronicle, hworld⟩ := h.world
  rw [hworld]

theorem call (e : Event) (s : Session) : Beside s (s.call sources e) := by
  unfold Session.call Tracker.call
  cases s.tracker.isRunning e with
  | true => exact of_world rfl rfl
  | false => exact of_world rfl rfl

theorem of_scripted (h : Scripted s s') : Beside s s' := by
  obtain ⟨_, _, _, rfl⟩ := h
  exact of_world rfl rfl

theorem answerCall (s : Session) (name : String) : Beside s (s.answerCall sources name) := by
  unfold Session.answerCall
  split
  · exact call sources _ s
  · exact of_world rfl rfl

end Beside

section

variable {sources} {s : Session}

theorem pendingScript_beginFrame (s : Session) :
    (beginFrame sources s).world.pendingScript = s.world.pendingScript := by
  have hwalk : ∀ p (s : Session),
      (walk sources p s).world.pendingScript = s.world.pendingScript := by
    intro p s
    unfold walk
    split
    · rfl
    · have hfired := World.pendingScript_fireTrigger .touch p { s.world with player := p }
      split
      · rename_i e w heq
        rw [heq] at hfired
        exact (Beside.call sources e _).pendingScript.trans hfired
      · rename_i w heq
        rwa [heq] at hfired
  have hpush : ∀ s : Session,
      (pushButton sources s).world.pendingScript = s.world.pendingScript := by
    intro s
    unfold pushButton
    split
    · have hfired := World.pendingScript_fireTrigger .button s.world.player s.world
      split
      · rename_i e w heq
        rw [heq] at hfired
        exact (Beside.call sources e _).pendingScript.trans hfired
      · rename_i w heq
        rwa [heq] at hfired
    · rfl
  unfold beginFrame
  rw [hpush]
  unfold takeWalk
  split
  · exact hwalk _ _
  · rfl

theorem pendingScript_closeIdleBox (status : TickStatus) (s : Session) :
    (closeIdleBox status s).world.pendingScript = s.world.pendingScript := by
  unfold closeIdleBox
  split
  · exact congrArg Setting.pendingScript s.world.setting_flushDialog
  · rfl

/-- The scripts are replaced exactly in the frames whose tick loads a scene. -/
theorem pendingScript_iff_loadsScene (hpending : s.world.pendingScript = none)
    {r : TickStatus × Tracker × World} (hreturns : Returns sources s r) :
    r.2.2.pendingScript.isSome = true ↔ LoadsScene sources s := by
  have hbegun : (beginFrame sources s).world.pendingScript = none :=
    (pendingScript_beginFrame s).trans hpending
  rw [Tracker.Runs.pendingScript_iff hreturns, hbegun, Option.isSome_none]
  simp only [Bool.false_eq_true, false_or]
  rfl

end

end Session

end Cutscene
