import Cutscene.Proofs.Stage.Upkeep
import Cutscene.Proofs.World.Firing

/-!
# Settings

The setting of a world is what it has of its scene and keeps until the next change of scene: the
events, the triggers and the doors, and the script that is pending. Whatever else is asked of a
world leaves the setting alone (`World.stage_keeps_setting`), and a scene that is entered brings a
setting of its own (`World.setting_enter`), whatever was there before but for the slots of the
triggers. The dialog, the music and whatever else outlasts the scene is left alone by a change of
scene (`World.lasting_sceneLoadStep`).
-/

namespace Cutscene

/-- What a world has of its scene and keeps until the next change of scene. -/
structure Setting where
  scene : String
  directory : String
  library : Library
  triggers : Arena (Trigger Event)
  doors : List (String × Point)
  pendingScript : Option (Option String)
  nextOrigin : Nat

/-- What of a world outlasts the scene, but for what has been noted of the past. -/
structure Lasting where
  input : Presses
  narrative : Narrative
  transcript : Array String
  clicks : Nat
  overlay : Colour
  movementLocked : Bool
  music : Option String
  tiles : Tiles

namespace World

/-- The setting of a world. -/
def setting (w : World) : Setting :=
  ⟨w.scene, w.directory, w.library, w.triggers, w.doors, w.pendingScript, w.nextOrigin⟩

/-- What of a world outlasts the scene. -/
def lasting (w : World) : Lasting :=
  ⟨w.input, w.narrative, w.transcript, w.clicks, w.overlay, w.movementLocked, w.music, w.tiles⟩

theorem setting_flushDialog (w : World) : w.flushDialog.setting = w.setting := by
  unfold flushDialog
  split <;> rfl

theorem setting_showOptions (first second : String) (highlighted : Nat) (w : World) :
    (w.showOptions first second highlighted).setting = w.setting := by
  unfold showOptions
  split <;> rfl

theorem setting_hideOptions (w : World) : w.hideOptions.setting = w.setting := by
  unfold hideOptions
  split <;> rfl

theorem setting_entityCue (name : String) (cue : Cue) (w : World) :
    (w.entityCue name cue).setting = w.setting := by
  unfold entityCue
  split
  · rfl
  · dsimp only
    split <;> rfl

/-- Nothing that is asked of a world but a change of scene touches its setting. -/
theorem stage_keeps_setting (load : String → Reported Scene) (S : Setting) :
    (stage load).Keeps (·.setting = S) where
  note _ _ h := h
  setFlag _ _ h := h
  unsetFlag _ _ h := h
  consume _ _ h := h
  openBox _ h := h
  closeBox w h := w.setting_flushDialog.trans h
  setText _ w h := w.setting_flushDialog.trans h
  appendText _ _ h := h
  setOverlay _ _ h := h
  lockMovement _ _ h := h
  showCursor _ _ h := h
  showOptions _ _ _ w h := (w.setting_showOptions _ _ _).trans h
  hideOptions w h := w.setting_hideOptions.trans h
  showExpression _ _ h := h
  dialogClick _ h := h
  playMusic _ _ _ h := h
  stopMusic _ h := h
  pauseMusic _ h := h
  resumeMusic _ h := h
  entityCue name cue w h := (w.setting_entityCue name cue).trans h
  setTile _ _ _ _ _ h := h

/-- A trigger that fires changes nothing but the chronicle and what is remembered of it. -/
theorem exists_fireTrigger_eq (kind : TriggerKind) (p : Point) (w : World) :
    ∃ chronicle lastTrigger, (w.fireTrigger kind p).2 = { w with chronicle, lastTrigger } := by
  obtain ⟨journal, ⟨-, heq⟩ | ⟨f, -, heq⟩⟩ := fireTrigger_cases kind p w
  · rw [heq]
    exact ⟨_, w.lastTrigger, rfl⟩
  · rw [heq]
    unfold spend
    split
    · exact ⟨_, some f.handle, rfl⟩
    · exact ⟨_, some f.handle, rfl⟩

theorem setting_fireTrigger (kind : TriggerKind) (p : Point) (w : World) :
    (w.fireTrigger kind p).2.setting = w.setting := by
  obtain ⟨chronicle, lastTrigger, heq⟩ := exists_fireTrigger_eq kind p w
  rw [heq]
  rfl

/-! ## The events of a world -/

/-- An event of the library, or a trigger's own. -/
def Holds (w : World) (e : Event) : Prop :=
  (∃ name, w.library.find? name = some e) ∨ ∃ x ∈ w.triggers.toList, x.2.action = .inlined e

/-- The event of a trigger that fires is one of the world's. -/
theorem holds_of_fireTrigger {kind : TriggerKind} {p : Point} {w w' : World} {e : Event}
    (h : w.fireTrigger kind p = (some e, w')) : w.Holds e := by
  obtain ⟨journal, ⟨-, heq⟩ | ⟨f, hfires, heq⟩⟩ := fireTrigger_cases kind p w
  · cases h.symm.trans heq
  · obtain ⟨hevent, -⟩ := Prod.mk.inj (h.symm.trans heq)
    obtain rfl : e = f.event := Option.some.inj hevent
    obtain ⟨hhit, -⟩ := mem_hits_of_firing hfires
    have he : w.eventOf? f.trigger = some f.event := eventOf?_of_firing hfires
    unfold eventOf? at he
    split at he
    · rename_i e' haction
      obtain rfl := Option.some.inj he
      exact .inr ⟨_, (List.mem_filter.mp hhit).1, haction⟩
    · rename_i name haction
      exact .inl ⟨name, he⟩

/-! ## A scene that is entered -/

/-- Where the player is put changes nothing else but the journal. -/
theorem exists_placePlayer_eq (door : Option String) (start : Option Point) (w : World) :
    ∃ journal player, w.placePlayer door start = { w.withJournal journal with player } := by
  unfold placePlayer
  split
  · exact ⟨w.chronicle.journal, _, rfl⟩
  · dsimp only
    split
    · exact ⟨w.chronicle.journal, _, rfl⟩
    · exact ⟨_, _, rfl⟩

/-- All that a scene changes of a world that enters it. -/
theorem exists_enter_eq (scene : Scene) (door : Option String) (w : World) :
    ∃ journal player, w.enter scene door =
      { w with
        chronicle := ⟨scene.flags.foldl .set w.chronicle.flags, w.chronicle.log, journal⟩
        scene := scene.name
        directory := scene.directory
        library := .ofList w.nextOrigin scene.events
        entities := .ofList (scene.entities.map fun (name, p) => (name, Entity.standing p))
        triggers := w.triggers.clear.insertAll
          (ownTriggers (w.nextOrigin + scene.events.length) scene.triggers)
        doors := scene.doors
        player
        pendingScript := some scene.script
        nextOrigin := w.nextOrigin + scene.events.length + scene.triggers.length } := by
  unfold enter
  dsimp only
  generalize hentered : World.mk _ _ _ _ _ _ _ _ _ _ _ _ _ _ _ _ _ _ _ = entered
  obtain ⟨journal, player, hplaced⟩ := exists_placePlayer_eq door scene.player entered
  rw [hplaced, ← hentered]
  exact ⟨_, player, rfl⟩

/-- A scene brings its own setting; its events are made anew. -/
theorem setting_enter (scene : Scene) (door : Option String) (w : World) :
    (w.enter scene door).setting =
      { scene := scene.name
        directory := scene.directory
        library := .ofList w.nextOrigin scene.events
        triggers := w.triggers.clear.insertAll
          (ownTriggers (w.nextOrigin + scene.events.length) scene.triggers)
        doors := scene.doors
        pendingScript := some scene.script
        nextOrigin := w.nextOrigin + scene.events.length + scene.triggers.length } := by
  obtain ⟨journal, player, hentered⟩ := exists_enter_eq scene door w
  rw [hentered]
  rfl

/-- A scene brings its own events, made anew. -/
theorem library_enter (scene : Scene) (door : Option String) (w : World) :
    (w.enter scene door).library = .ofList w.nextOrigin scene.events :=
  congrArg Setting.library (setting_enter scene door w)

theorem directory_enter (scene : Scene) (door : Option String) (w : World) :
    (w.enter scene door).directory = scene.directory :=
  congrArg Setting.directory (setting_enter scene door w)

theorem triggers_enter (scene : Scene) (door : Option String) (w : World) :
    (w.enter scene door).triggers = w.triggers.clear.insertAll
      (ownTriggers (w.nextOrigin + scene.events.length) scene.triggers) :=
  congrArg Setting.triggers (setting_enter scene door w)

theorem pendingScript_enter (scene : Scene) (door : Option String) (w : World) :
    (w.enter scene door).pendingScript = some scene.script :=
  congrArg Setting.pendingScript (setting_enter scene door w)

theorem nextOrigin_enter (scene : Scene) (door : Option String) (w : World) :
    (w.enter scene door).nextOrigin =
      w.nextOrigin + scene.events.length + scene.triggers.length :=
  congrArg Setting.nextOrigin (setting_enter scene door w)

/-- No scene can be loaded. -/
def noScene (path : String) : Reported Scene := ([], .error (.triggerWithoutEvent path 0))

/-- A scene that cannot be loaded changes nothing but the journal. -/
theorem exists_loadScene_of_error {load : String → Reported Scene} {path : String} {w : World}
    {lines : List Line} {error : SceneError}
    (h : load (Text.Path.join w.directory path) = (lines, .error error)) (door : Option String) :
    ∃ journal, loadScene load path door w = (none, w.withJournal journal) := by
  unfold loadScene
  rw [h]
  exact ⟨_, rfl⟩

/-- The world when it has logged that a scene has been loaded, before it enters the scene. -/
def leaving (scene : Scene) (door : Option String) (journal : Journal) (w : World) : World :=
  let entrance := door.getD "-"
  { (w.record s!"scene.load {scene.name} door={entrance}").withJournal journal with
    lastTrigger := none }

/-- A scene that can be loaded is entered. -/
theorem exists_loadScene_of_ok {load : String → Reported Scene} {path : String} {w : World}
    {lines : List Line} {scene : Scene}
    (h : load (Text.Path.join w.directory path) = (lines, .ok scene)) (door : Option String) :
    ∃ journal, loadScene load path door w =
      (((w.leaving scene door journal).enter scene door).library.start?,
        (w.leaving scene door journal).enter scene door) := by
  unfold loadScene
  rw [h]
  exact ⟨_, rfl⟩

theorem lasting_loadScene (load : String → Reported Scene) (path : String) (door : Option String)
    (w : World) : (loadScene load path door w).2.lasting = w.lasting := by
  rcases hload : load (Text.Path.join w.directory path) with ⟨lines, error | scene⟩
  · obtain ⟨journal, heq⟩ := exists_loadScene_of_error hload door
    rw [heq]
    rfl
  · obtain ⟨journal, heq⟩ := exists_loadScene_of_ok hload door
    obtain ⟨journal', player, hentered⟩ :=
      exists_enter_eq scene door (w.leaving scene door journal)
    rw [heq, hentered]
    rfl

/-- The operation that changes the scene does no more than the change of scene, but for what it
reports. -/
theorem exists_sceneLoadStep_eq (load : String → Reported Scene) (path : String)
    (door : Option String) (voices : Voices) (w : World) :
    ∃ said journal,
      let loaded := loadScene load path door (w.withJournal said)
      (sceneLoadStep (stage load) path door voices w).queued = loaded.1 ∧
        (sceneLoadStep (stage load) path door voices w).state = loaded.2.withJournal journal := by
  obtain ⟨said, hsaid⟩ :
      ∃ said, (stage load).say .debug s!"scene load {path}" w = w.withJournal said := ⟨_, rfl⟩
  rcases hload : loadScene load path door (w.withJournal said) with ⟨start, w'⟩
  have hstage : (stage load).loadScene path door (w.withJournal said) = (start, w') := hload
  have hqueued : (sceneLoadStep (stage load) path door voices w).queued = start := by
    simp only [sceneLoadStep, hsaid, hstage]
  have hstate : ∃ journal,
      (sceneLoadStep (stage load) path door voices w).state = w'.withJournal journal := by
    simp only [sceneLoadStep, hsaid, hstage]
    cases start with
    | none => exact ⟨w'.chronicle.journal, rfl⟩
    | some e => exact ⟨_, rfl⟩
  obtain ⟨journal, hstate⟩ := hstate
  exact ⟨said, journal, by rw [hload]; exact ⟨hqueued, hstate⟩⟩

/-- What outlasts the scene is left alone by a change of scene. -/
theorem lasting_sceneLoadStep (load : String → Reported Scene) (path : String)
    (door : Option String) (voices : Voices) (w : World) :
    (sceneLoadStep (stage load) path door voices w).state.lasting = w.lasting := by
  obtain ⟨said, journal, -, hstate⟩ := exists_sceneLoadStep_eq load path door voices w
  rw [hstate]
  exact lasting_loadScene load path door (w.withJournal said)

/-- A value of the world that outlasts the scene is left alone by an operation that does the same on
a stage that keeps the value. -/
theorem value_execute {α : Type} {v : World → α} {altered : Stage World}
    (hkeeps : ∀ a, altered.Keeps (v · = a))
    (hlasts : ∀ w w' : World, w'.lasting = w.lasting → v w' = v w)
    {load : String → Reported Scene} {event : Event} {position : Nat} {op : Operation} {now : Nat}
    {entering : Bool} {progress : Progress} {voices : Voices} {w : World}
    (hsame : execute altered event position op now entering progress voices w =
      execute (stage load) event position op now entering progress voices w) :
    v (execute (stage load) event position op now entering progress voices w).state = v w := by
  cases hscene : op.loadsScene with
  | false =>
      rw [← hsame]
      exact (hkeeps (v w)).execute event position now entering progress voices hscene rfl
  | true =>
      -- the load of a scene is not a request that `Keeps` speaks of
      cases op with
      | sceneLoad path door => exact hlasts _ _ (lasting_sceneLoadStep load path door voices w)
      | _ => exact absurd hscene Bool.false_ne_true

end World

end Cutscene
