import Cutscene.Proofs.Tracker.Ending

/-!
# Changes of scene

Inside one scene a tick ends, because an event that is running is not called again. A change of
scene escapes that guard: it makes all events of the new scene anew and queues the new start event
below everything that is running, in the same tick. So a tick ends exactly if it changes the scene
only finitely often (`exists_runs_iff`).

On a world, a change of scene either fails and is like any other operation that is done, or it
replaces the library and queues at most one frame (`exists_moves_or_enters`).
-/

namespace Cutscene

namespace Tracker

section

variable {σ : Type} {stage : Stage σ} {now : Nat}

/-- How many of the first turns of a tick change the scene. -/
def sceneChanges (stage : Stage σ) (now : Nat) : Nat → Tracker → σ → Nat
  | 0, _, _ => 0
  | n + 1, t, s =>
    match turn stage now t s with
    | .ended _ _ _ => 0
    | .more t' s' => (if t.changesScene then 1 else 0) + sceneChanges stage now n t' s'

theorem sceneChanges_of_goes {c c' : Tracker × σ} (h : Goes stage now c c') (n : Nat) :
    sceneChanges stage now (n + 1) c.1 c.2 =
      (if c.1.changesScene then 1 else 0) + sceneChanges stage now n c'.1 c'.2 := by
  rw [sceneChanges, h]

/-- What a tick does later, it does. -/
theorem sceneChanges_le_of_path {c c' : Tracker × σ}
    (h : Relation.ReflTransGen (Goes stage now) c c') (n : Nat) :
    ∃ m, sceneChanges stage now n c'.1 c'.2 ≤ sceneChanges stage now m c.1 c.2 := by
  induction h using Relation.ReflTransGen.head_induction_on with
  | refl => exact ⟨n, le_rfl⟩
  | head hgo _ ih =>
      obtain ⟨m, hm⟩ := ih
      refine ⟨m + 1, ?_⟩
      rw [sceneChanges_of_goes hgo]
      omega

/-- A tick that ends takes finitely many turns. -/
theorem Runs.exists_bound {t : Tracker} {s : σ} {r : TickStatus × Tracker × σ}
    (h : Runs stage now t s r) : ∃ bound, ∀ n, sceneChanges stage now n t s ≤ bound := by
  induction h with
  | ended hturn =>
      refine ⟨0, ?_⟩
      intro n
      cases n with
      | zero => exact le_rfl
      | succ n => rw [sceneChanges, hturn]
  | more hturn _ ih =>
      obtain ⟨bound, hbound⟩ := ih
      refine ⟨bound + 1, ?_⟩
      intro n
      cases n with
      | zero => exact Nat.zero_le _
      | succ n =>
          rw [sceneChanges, hturn]
          have hle := hbound n
          dsimp only
          split <;> omega

/-- A turn that changes the scene goes on with the next operation. -/
theorem turn_sceneLoad {t : Tracker} {f : Frame} {below : List Frame} {path : String}
    {door : Option String} (hsettle : settle t.frames = f :: below)
    (hop : f.operation? = some (.sceneLoad path door)) (s : σ) :
    let r := f.perform stage now (.sceneLoad path door) t.voices s
    turn stage now t s = .more ⟨f.advance :: queuedBelow r below, r.voices⟩ r.state := by
  intro r
  obtain ⟨op, hop', hturn⟩ := turn_active hsettle t.voices s
  obtain rfl : op = .sceneLoad path door := Option.some.inj (hop'.symm.trans hop)
  exact hturn.trans (follow_next rfl)

theorem exists_goes_of_changesScene {c : Tracker × σ} (h : c.1.changesScene = true) :
    ∃ c', Goes stage now c c' := by
  obtain ⟨f, below, path, door, hsettle, hop⟩ := exists_sceneLoad h
  exact ⟨(_, _), turn_sceneLoad hsettle hop c.2⟩

/-- On a stage that always serves some library, a tick ends exactly if it changes the scene only
finitely often. -/
theorem exists_runs_iff (hserves : ∀ s, ∃ lib P, stage.Serves lib P ∧ P s) (now : Nat) (t : Tracker)
    (s : σ) : (∃ r, Runs stage now t s r) ↔
      ∃ bound, ∀ n, sceneChanges stage now n t s ≤ bound := by
  constructor
  · rintro ⟨r, hr⟩
    exact hr.exists_bound
  · rintro ⟨bound, hbound⟩
    induction bound using Nat.strong_induction_on generalizing t s with
    | _ bound ih =>
        obtain ⟨lib, P, hstage, hs⟩ := hserves s
        obtain ⟨cast, base, htroupe⟩ := exists_troupe lib t.frames
        have hplays : Plays P (reachable lib t.frames) (t, s) := ⟨hs, fun f hf => ⟨f, hf, .refl⟩⟩
        rcases ends_or_changesScene hstage htroupe now hplays with hends | ⟨c, hpath, -, hchange⟩
        · exact hends
        · -- one change of scene is behind the tick, and one fewer is left
          obtain ⟨c', hgo⟩ := exists_goes_of_changesScene hchange
          have hafter : ∀ n, sceneChanges stage now n c'.1 c'.2 + 1 ≤ bound := by
            intro n
            obtain ⟨m, hm⟩ := sceneChanges_le_of_path hpath (n + 1)
            rw [sceneChanges_of_goes hgo, if_pos hchange] at hm
            have hle := hm.trans (hbound m)
            omega
          have hpos := hafter 0
          obtain ⟨r, hr⟩ := ih (bound - 1) (by omega) c'.1 c'.2 fun n => by
            have hle := hafter n
            omega
          exact ⟨r, hr.of_path (hpath.tail hgo)⟩

end

/-! ## Changes of scene on a world -/

section

variable {load : String → Reported Scene} {path : String} {w : World} {lines : List Line}

/-- A change of scene in a turn does what the world does, but for what is reported. -/
theorem exists_perform_sceneLoad (load : String → Reported Scene) (f : Frame) (now : Nat)
    (path : String) (door : Option String) (voices : Voices) (w : World) :
    ∃ said journal,
      let r := f.perform (World.stage load) now (.sceneLoad path door) voices w
      let loaded := World.loadScene load path door (w.withJournal said)
      r.queued = loaded.1 ∧ r.state = loaded.2.withJournal journal := by
  obtain ⟨traced, htraced⟩ : ∃ traced, ∀ voices,
      f.perform (World.stage load) now (.sceneLoad path door) voices w =
        sceneLoadStep (World.stage load) path door voices (w.withJournal traced) :=
    ⟨_, fun _ => rfl⟩
  obtain ⟨said, journal, heq⟩ :=
    World.exists_sceneLoadStep_eq load path door voices (w.withJournal traced)
  rw [htraced]
  exact ⟨said, journal, heq⟩

/-- A scene that can be loaded brings its events and its directory, and queues its start event. -/
theorem perform_sceneLoad_of_ok {scene : Scene}
    (h : load (Text.Path.join w.directory path) = (lines, .ok scene)) (f : Frame) (now : Nat)
    (door : Option String) (voices : Voices) :
    let r := f.perform (World.stage load) now (.sceneLoad path door) voices w
    r.state.library = .ofList w.nextOrigin scene.events ∧ r.state.directory = scene.directory ∧
      r.queued = r.state.library.start? := by
  obtain ⟨said, journal, hqueued, hstate⟩ :=
    exists_perform_sceneLoad load f now path door voices w
  obtain ⟨journal', hloaded⟩ := World.exists_loadScene_of_ok (w := w.withJournal said) h door
  dsimp only
  rw [hqueued, hstate, hloaded]
  exact ⟨World.library_enter scene door _, World.directory_enter scene door _, rfl⟩

/-- A scene that cannot be loaded leaves the events as they are and queues none. -/
theorem perform_sceneLoad_of_error {error : SceneError}
    (h : load (Text.Path.join w.directory path) = (lines, .error error)) (f : Frame) (now : Nat)
    (door : Option String) (voices : Voices) :
    let r := f.perform (World.stage load) now (.sceneLoad path door) voices w
    r.state.library = w.library ∧ r.queued = none := by
  obtain ⟨said, journal, hqueued, hstate⟩ :=
    exists_perform_sceneLoad load f now path door voices w
  obtain ⟨journal', hloaded⟩ := World.exists_loadScene_of_error (w := w.withJournal said) h door
  dsimp only
  rw [hqueued, hstate, hloaded]
  exact ⟨rfl, rfl⟩

/-- A turn that enters a scene: `f` is the frame whose operation loads it. -/
structure Enters (load : String → Reported Scene) (f : Frame) (below : List Frame)
    (c c' : Tracker × World) : Prop where
  scene : ∃ path door lines scene origin, f.operation? = some (.sceneLoad path door) ∧
    load (Text.Path.join c.2.directory path) = (lines, .ok scene) ∧
    c'.2.library = .ofList origin scene.events
  frames : c'.1.frames = f.advance :: (below ++ (c'.2.library.start?.map Frame.start).toList)

/-- A turn that goes on enters a scene or leaves the events of the scene as they are. -/
theorem exists_moves_or_enters {now : Nat} {c c' : Tracker × World}
    (hgo : Goes (World.stage load) now c c') :
    ∃ f below, settle c.1.frames = f :: below ∧
      (Moves c.2.library f below c'.1.frames ∧ c'.2.library = c.2.library ∨
        Enters load f below c c') := by
  have hserves := World.stage_serves load c.2.library
  cases hscene : c.1.changesScene with
  | false =>
      obtain ⟨f, below, hsettle, hmoves, hlibrary⟩ := exists_moves hserves rfl hscene hgo
      exact ⟨f, below, hsettle, Or.inl ⟨hmoves, hlibrary⟩⟩
  | true =>
      obtain ⟨f, below, path, door, hsettle, hop⟩ := exists_sceneLoad hscene
      refine ⟨f, below, hsettle, ?_⟩
      obtain ⟨t, w⟩ := c
      obtain ⟨t', w'⟩ := c'
      set r := f.perform (World.stage load) now (.sceneLoad path door) t.voices w
      obtain ⟨rfl, rfl⟩ := Turn.more.inj (hgo.symm.trans (turn_sceneLoad hsettle hop w))
      rcases hload : load (Text.Path.join w.directory path) with ⟨lines, error | scene⟩
      · -- the operation is done without effect on the events
        obtain ⟨hlibrary, hqueued⟩ := perform_sceneLoad_of_error hload f now door t.voices
        refine Or.inl ⟨?_, hlibrary⟩
        have hqueue : queuedBelow r below = below := by
          rw [queuedBelow, hqueued]
        show Moves _ f below (f.advance :: queuedBelow r below)
        rw [hqueue]
        exact .advance
      · obtain ⟨hlibrary, -, hqueued⟩ := perform_sceneLoad_of_ok hload f now door t.voices
        refine Or.inr ⟨⟨path, door, lines, scene, w.nextOrigin, hop, hload, hlibrary⟩, ?_⟩
        show f.advance :: queuedBelow r below =
          f.advance :: (below ++ (r.state.library.start?.map Frame.start).toList)
        rw [queuedBelow_eq, hqueued]

end

end Tracker

end Cutscene
