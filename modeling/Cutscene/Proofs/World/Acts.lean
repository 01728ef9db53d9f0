import Cutscene.Proofs.World.Setting

/-!
# What can be done with a world

`World.Act` is everything that can be done with a world: what events ask of it as a stage, what
sessions ask of it besides, and what scripts do to the flags and the log, which they share with it.
A world is reached (`World.Reached`) if it comes from the beginning of a scene by such acts. Every
request of a stage is an act, so operations, too, lead from one world that is reached to another
(`Reached.execute`).

Only a change of scene touches the events and the triggers (`exists_setting_act`).
-/

namespace Cutscene

namespace World

/-- One thing that can be done with a world. -/
inductive Act where
  | note (line : Line)
  | setFlag (name : String)
  | unsetFlag (name : String)
  | consume (c : Control)
  | openBox
  | closeBox
  | setText (text : String)
  | appendText (text : String)
  | showCursor (visible : Bool)
  | showOptions (first second : String) (highlighted : Nat)
  | hideOptions
  | showExpression (expression : Option String)
  | dialogClick
  | playMusic (path : String) (looped : Bool)
  | stopMusic
  | pauseMusic
  | resumeMusic
  | entityCue (name : String) (cue : Cue)
  | setTile (place : TilePlace) (atlas : String) (rotation : Int)
  | setOverlay (c : Colour)
  | lockMovement (locked : Bool)
  | loadScene (path : String) (door : Option String)
  | press (c : Control)
  | clearInput
  | setPlayer (p : Point)
  | fireTrigger (kind : TriggerKind) (p : Point)
  | flushDialog
  | takePendingScript
  /-- A script logs something. -/
  | scriptLogs (entry : String)
  /-- A script changes flags. -/
  | scriptSets (flags : Flags)

variable (load : String → Reported Scene)

/-- The world after an act, given what scenes can be loaded. -/
def act (w : World) : Act → World
  | .note line => w.note line
  | .setFlag name => (w.setFlag name).2
  | .unsetFlag name => (w.unsetFlag name).2
  | .consume c => (w.consume c).2
  | .openBox => w.openBox
  | .closeBox => w.closeBox
  | .setText text => w.setText text
  | .appendText text => w.appendText text
  | .showCursor visible => w.showCursor visible
  | .showOptions first second highlighted => w.showOptions first second highlighted
  | .hideOptions => w.hideOptions
  | .showExpression expression => w.showExpression expression
  | .dialogClick => w.dialogClick
  | .playMusic path looped => w.playMusic path looped
  | .stopMusic => w.stopMusic
  | .pauseMusic => w.record "music.pause"
  | .resumeMusic => w.record "music.play"
  | .entityCue name cue => w.entityCue name cue
  | .setTile place atlas rotation => w.setTile place atlas rotation
  | .setOverlay c => { w with overlay := c }
  | .lockMovement locked => { w with movementLocked := locked }
  | .loadScene path door => (w.loadScene load path door).2
  | .press c => w.press c
  | .clearInput => w.clearInput
  | .setPlayer p => { w with player := p }
  | .fireTrigger kind p => (w.fireTrigger kind p).2
  | .flushDialog => w.flushDialog
  | .takePendingScript => w.takePendingScript.2
  | .scriptLogs entry => w.record entry
  | .scriptSets flags => { w with chronicle := { w.chronicle with flags } }

/-- The world after some acts. -/
def actAll (w : World) (acts : List Act) : World := acts.foldl (act load) w

/-- A world that some acts have led to from the beginning of a scene. -/
def Reached (w : World) : Prop := ∃ scene acts, w = actAll load (ofScene scene) acts

variable {load} {w : World}

theorem actAll_cons (w : World) (a : Act) (acts : List Act) :
    actAll load w (a :: acts) = actAll load (act load w a) acts := rfl

theorem actAll_concat (w : World) (acts : List Act) (a : Act) :
    actAll load w (acts ++ [a]) = act load (actAll load w acts) a := by
  simp [actAll]

theorem Reached.act (h : Reached load w) (a : Act) : Reached load (act load w a) := by
  obtain ⟨scene, acts, rfl⟩ := h
  exact ⟨scene, acts ++ [a], (actAll_concat _ acts a).symm⟩

/-- What holds at the beginning of every scene and is kept by every act holds of every world that is
reached. -/
theorem Reached.invariant {P : World → Prop} (hbegun : ∀ scene, P (ofScene scene))
    (hact : ∀ w a, P w → P (World.act load w a)) (h : Reached load w) : P w := by
  obtain ⟨scene, acts, rfl⟩ := h
  have hkept : ∀ w, P w → P (actAll load w acts) := by
    induction acts with
    | nil => exact fun w hw => hw
    | cons a acts ih => exact fun w hw => ih _ (hact w a hw)
  exact hkept _ (hbegun scene)

/-- Every request of the stage is an act. -/
theorem stage_keeps_reached (load : String → Reported Scene) :
    (stage load).Keeps (Reached load) where
  note line _ h := h.act (.note line)
  setFlag name _ h := h.act (.setFlag name)
  unsetFlag name _ h := h.act (.unsetFlag name)
  consume c _ h := h.act (.consume c)
  openBox _ h := h.act .openBox
  closeBox _ h := h.act .closeBox
  setText text _ h := h.act (.setText text)
  appendText text _ h := h.act (.appendText text)
  setOverlay c _ h := h.act (.setOverlay c)
  lockMovement locked _ h := h.act (.lockMovement locked)
  showCursor visible _ h := h.act (.showCursor visible)
  showOptions first second highlighted _ h :=
    h.act (.showOptions first second (if highlighted then 1 else 0))
  hideOptions _ h := h.act .hideOptions
  showExpression expression _ h := h.act (.showExpression expression)
  dialogClick _ h := h.act .dialogClick
  playMusic path looped _ h := h.act (.playMusic path looped)
  stopMusic _ h := h.act .stopMusic
  pauseMusic _ h := h.act .pauseMusic
  resumeMusic _ h := h.act .resumeMusic
  entityCue name cue _ h := h.act (.entityCue name cue)
  setTile layer place atlas rotation _ h := h.act (.setTile (layer, place) atlas rotation)

/-- Whatever an operation does leads from a world that is reached to another. -/
theorem Reached.execute (h : Reached load w) (event : Event) (position : Nat) (op : Operation)
    (now : Nat) (entering : Bool) (progress : Progress) (voices : Voices) :
    Reached load
      (execute (stage load) event position op now entering progress voices w).state := by
  cases hscene : op.loadsScene with
  | false =>
      exact (stage_keeps_reached load).execute event position now entering progress voices hscene h
  | true =>
      cases op with
      | sceneLoad path door =>
          have hloaded := (h.act (.note ⟨.debug, s!"scene load {path}"⟩)).act (.loadScene path door)
          show Reached load (sceneLoadStep (stage load) path door voices w).state
          unfold sceneLoadStep
          dsimp only
          split
          · exact hloaded.act (.note _)
          · exact hloaded
      | _ => exact absurd hscene Bool.false_ne_true

/-- An act that does not change the scene leaves the setting as it is; at most the pending script is
taken. -/
theorem exists_setting_act (load : String → Reported Scene) (w : World) {a : Act}
    (ha : ∀ path door, a ≠ .loadScene path door) :
    ∃ pendingScript, (act load w a).setting = { w.setting with pendingScript } := by
  cases a with
  | loadScene path door => exact absurd rfl (ha path door)
  | takePendingScript => exact ⟨none, rfl⟩
  | closeBox | setText | flushDialog => exact ⟨w.pendingScript, w.setting_flushDialog⟩
  | showOptions => exact ⟨w.pendingScript, w.setting_showOptions _ _ _⟩
  | hideOptions => exact ⟨w.pendingScript, w.setting_hideOptions⟩
  | entityCue name cue => exact ⟨w.pendingScript, w.setting_entityCue name cue⟩
  | fireTrigger kind p => exact ⟨w.pendingScript, setting_fireTrigger kind p w⟩
  | _ => exact ⟨w.pendingScript, rfl⟩

/-- What only scenes that are entered change, and what each of them brings, holds of every world
that is reached. -/
theorem Reached.invariant_enter {P : World → Prop} (hblank : P blank)
    (hsetting : ∀ w w' : World, w'.library = w.library → w'.triggers = w.triggers →
      w'.nextOrigin = w.nextOrigin → P w → P w')
    (henter : ∀ w scene door, P w → P (w.enter scene door)) (h : Reached load w) : P w := by
  refine h.invariant (fun scene => ?_) fun w a hw => ?_
  · -- a world begins as a blank one that enters the scene
    exact hsetting (blank.enter scene none) _ rfl rfl rfl (henter blank scene none hblank)
  · by_cases ha : ∃ path door, a = .loadScene path door
    · obtain ⟨path, door, rfl⟩ := ha
      show P (loadScene load path door w).2
      rcases hload : load (Text.Path.join w.directory path) with ⟨lines, error | scene⟩
      · obtain ⟨journal, heq⟩ := exists_loadScene_of_error hload door
        rw [heq]
        exact hsetting w _ rfl rfl rfl hw
      · obtain ⟨journal, heq⟩ := exists_loadScene_of_ok hload door
        rw [heq]
        exact henter _ scene door (hsetting w (w.leaving scene door journal) rfl rfl rfl hw)
    · obtain ⟨pendingScript, hkept⟩ := exists_setting_act load w fun path door heq =>
        ha ⟨path, door, heq⟩
      exact hsetting w _ (congrArg Setting.library hkept) (congrArg Setting.triggers hkept)
        (congrArg Setting.nextOrigin hkept) hw

end World

end Cutscene
