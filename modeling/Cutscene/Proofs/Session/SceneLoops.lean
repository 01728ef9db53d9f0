import Cutscene.Proofs.Session.SceneRanks
import Cutscene.Script.Interpreter
import Cutscene.Session

/-!
# Frames that load scenes

A tick is meant to be bounded work, and across changes of scene this rests on the scenes. The tick
of a frame returns exactly if it changes the scene only finitely often, and it always does so if
scenes load only scenes of lower rank (`frame_returns_iff`), as in a lead-in to another scene
(`leadIn_returns`). A scene whose start event loads that same scene keeps the tick going for ever
(`selfLoading_never_returns`).
-/

namespace Cutscene

namespace Tracker

section

variable {σ : Type} {stage : Stage σ} {now : Nat}

/-- A tick whose every turn goes on never returns. -/
theorem not_runs_of_forever {I : Tracker → σ → Prop}
    (hstep : ∀ t s, I t s → ∃ t' s', turn stage now t s = .more t' s' ∧ I t' s') {t : Tracker}
    {s : σ} (hI : I t s) : ¬∃ r, Runs stage now t s r := by
  rintro ⟨r, h⟩
  induction h with
  | ended hturn =>
      obtain ⟨t', s', hmore, -⟩ := hstep _ _ hI
      rw [hturn] at hmore
      cases hmore
  | more hturn _ ih =>
      obtain ⟨t', s', hmore, hI'⟩ := hstep _ _ hI
      rw [hturn] at hmore
      obtain ⟨rfl, rfl⟩ := Turn.more.inj hmore
      exact ih hI'

end

end Tracker

namespace Session

/-- In any state of a session over any scenes, the tick of the next frame returns exactly if it
changes the scene only finitely often. It does so if scenes load only scenes of lower rank. -/
theorem frame_returns_iff [Interpreter] (sources : Sources) (s : Session) :
    let b := beginFrame sources s
    let returns := ∃ r, Tracker.Runs (stage sources) b.now b.tracker b.world r
    (returns ↔
      ∃ bound, ∀ n, Tracker.sceneChanges (stage sources) b.now n b.tracker b.world ≤ bound) ∧
    ∀ rank top, Descends sources.scene rank top → returns := by
  intro b returns
  constructor
  · refine Tracker.exists_runs_iff ?_ b.now b.tracker b.world
    intro w
    exact ⟨w.library, _, World.stage_serves sources.scene w.library, rfl⟩
  · intro rank top hdescends
    exact Tracker.exists_runs_of_descends hdescends b.now (b.tracker, b.world)

/-! ## One scene after the other -/

/-- A scene that loads another one when it starts. -/
def leadIn : Scene where
  name := "lead-in"
  path := "first.json"
  events := [(Event.startName, [.sceneLoad "second.json" none])]
  entities := []
  triggers := []
  flags := []
  script := none
  doors := []
  player := none

/-- A scene without events. -/
def finale : Scene := { leadIn with name := "finale", path := "second.json", events := [] }

/-- The two scenes in their files. -/
def twoSceneSources : Sources where
  scene path :=
    if path = "first.json" then ([], .ok leadIn)
    else if path = "second.json" then ([], .ok finale)
    else ([], .error (.file path .notFound))
  script _ := .error .notFound

theorem eq_of_twoSceneSources {path : String} {lines : List Line} {scene : Scene}
    (h : twoSceneSources.scene path = (lines, .ok scene)) :
    (path = "first.json" ∧ scene = leadIn) ∨ scene = finale := by
  unfold twoSceneSources at h
  dsimp only at h
  split at h
  · rename_i hpath
    obtain ⟨-, hscene⟩ := Prod.mk.inj h
    exact Or.inl ⟨hpath, (Except.ok.inj hscene).symm⟩
  · split at h
    · obtain ⟨-, hscene⟩ := Prod.mk.inj h
      exact Or.inr (Except.ok.inj hscene).symm
    · cases h

/-- The lead-in is above the finale. -/
theorem descends_twoSceneSources : Descends twoSceneSources.scene (·.events.length) 2 where
  lt_top path lines scene hload := by
    rcases eq_of_twoSceneSources hload with ⟨-, rfl⟩ | rfl
    · decide
    · decide
  loadsBelow path lines scene hload name operations hmem origin := by
    rcases eq_of_twoSceneSources hload with ⟨-, rfl⟩ | rfl
    · obtain ⟨rfl, rfl⟩ := Prod.mk.inj (List.mem_singleton.1 hmem)
      intro e' he path' door hop directory lines' scene' hload'
      -- the event holds none, and no path to the second file is one to the first
      rcases Relation.ReflTransGen.cases_head he with rfl | ⟨e₁, ⟨hop₁, hbody⟩, -⟩
      · obtain ⟨rfl, rfl⟩ := Operation.sceneLoad.inj (List.mem_singleton.1 hop)
        rcases eq_of_twoSceneSources hload' with ⟨hpath, -⟩ | rfl
        · have hlength := congrArg String.length hpath
          have hle : "second.json".length ≤
              (Text.Path.join directory "second.json").length := by
            unfold Text.Path.join
            split
            · exact le_rfl
            · split <;> simp
          rw [hlength] at hle
          exact absurd hle (by decide)
        · decide
      · rw [List.mem_singleton.1 (List.mem_of_getElem? hop₁)] at hbody
        cases hbody
    · cases hmem

/-- A session of the lead-in returns from its first frame. -/
theorem leadIn_returns :
    ∃ lines s, load twoSceneSources .standard "first.json" = (lines, .ok s) ∧
      let b := beginFrame twoSceneSources s
      ∃ r, Tracker.Runs (stage twoSceneSources) b.now b.tracker b.world r := by
  refine ⟨_, _, rfl, ?_⟩
  exact (frame_returns_iff twoSceneSources _).2 _ 2 descends_twoSceneSources

/-! ## A scene that loads itself -/

/-- A scene whose start event loads the scene again. -/
def selfLoading : Scene where
  name := "loop"
  path := "scene.json"
  events := [(Event.startName, [.sceneLoad "scene.json" none])]
  entities := []
  triggers := []
  flags := []
  script := none
  doors := []
  player := none

/-- The scene in the only file that there is. -/
def selfLoadingSources : Sources where
  scene path :=
    if path = "scene.json" then ([], .ok selfLoading) else ([], .error (.file path .notFound))
  script _ := .error .notFound

/-- Only a start event that loads the scene is left, at its beginning. -/
def AtStart (t : Tracker) (w : World) : Prop :=
  ∃ e, Tracker.settle t.frames = [.start e] ∧ e.operations = [.sceneLoad "scene.json" none] ∧
    w.directory = ""

theorem start?_selfLoading (origin : Nat) :
    (Library.ofList origin selfLoading.events).start? =
      some (.make origin (some Event.startName) [.sceneLoad "scene.json" none]) := by
  have hinsert : Library.ofList origin selfLoading.events =
      Library.empty.insert origin Event.startName [.sceneLoad "scene.json" none] := rfl
  rw [hinsert, Library.start?, Library.find?_insert, if_pos Std.ReflCmp.compare_self]

/-- At the start, the next turn loads the scene and leads to the start again. -/
theorem exists_atStart (now : Nat) {t : Tracker} {w : World} (h : AtStart t w) :
    ∃ t' w', Tracker.turn (stage selfLoadingSources) now t w = .more t' w' ∧ AtStart t' w' := by
  obtain ⟨e, hsettle, hops, hdir⟩ := h
  have hop : (Frame.start e).operation? = some (.sceneLoad "scene.json" none) := by
    simp [Frame.operation?, Frame.start, hops]
  refine ⟨_, _, Tracker.turn_sceneLoad hsettle hop w, ?_⟩
  set r := (Frame.start e).perform (stage selfLoadingSources) now (.sceneLoad "scene.json" none)
    t.voices w
  -- the operation finds the scene again and queues the new start event
  have hload : selfLoadingSources.scene (Text.Path.join w.directory "scene.json") =
      ([], .ok selfLoading) := by
    rw [hdir]
    rfl
  obtain ⟨hlibrary, hdirectory, hqueued⟩ :
      r.state.library = .ofList w.nextOrigin selfLoading.events ∧
        r.state.directory = selfLoading.directory ∧ r.queued = r.state.library.start? :=
    Tracker.perform_sceneLoad_of_ok hload (.start e) now none t.voices
  rw [hlibrary, start?_selfLoading] at hqueued
  have hdone : (Frame.start e).advance.resumed.isFinished = true := by
    refine decide_eq_true ?_
    show e.operations.length ≤ 1
    rw [hops]
    rfl
  refine ⟨.make w.nextOrigin (some Event.startName) [.sceneLoad "scene.json" none], ?_, rfl,
    hdirectory.trans (by decide)⟩
  show Tracker.settle ((Frame.start e).advance :: Tracker.queuedBelow r []) = _
  rw [Tracker.queuedBelow_eq, hqueued, Tracker.settle_cons_of_finished hdone]
  rfl

/-- A session of a scene that loads itself begins, and its first frame never returns. -/
theorem selfLoading_never_returns :
    ∃ lines s, load selfLoadingSources .standard "scene.json" = (lines, .ok s) ∧
      let b := beginFrame selfLoadingSources s
      ¬∃ r, Tracker.Runs (stage selfLoadingSources) b.now b.tracker b.world r := by
  refine ⟨_, _, rfl, ?_⟩
  intro b
  refine Tracker.not_runs_of_forever (I := AtStart) (fun t w h => exists_atStart _ h) ?_
  exact ⟨.make 0 (some Event.startName) [.sceneLoad "scene.json" none], rfl, rfl, rfl⟩

end Session

end Cutscene
