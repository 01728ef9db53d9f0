import Mathlib.Data.List.Nodup
import Cutscene.Proofs.Session.Playing
import Cutscene.Proofs.Session.SceneChanges
import Cutscene.Proofs.World.Numbers
import Cutscene.Script.Interpreter

/-!
# One frame for each event

An event that is called is refused if it is running, but the start event of a scene that is loaded
is put below all frames without being looked for. It need not be looked for: a scene that is loaded
is made anew, so its events have numbers that no event has had before. What holds all along is that
all frames are of different events and that all numbers that are in use have been given (`Numbers`).
A called event has a number that was given, and so has one that is written inside another
(`numbers_perform`).
-/

namespace Cutscene

namespace Tracker

/-! ## The events of the stack -/

/-- What is left of the events on the stack when an operation has been executed: none is new but the
one that the operation calls, which comes on top unless it is running, and one that it queues. -/
theorem exists_events_left {σ : Type} (stage : Stage σ) (f : Frame) (below : List Frame)
    (r : Effect σ) : ∃ (called : Option Event) (kept : List Event),
      (follow stage f below r).left.1.frames.map (·.event) =
        called.toList ++ kept ++ r.queued.toList ∧
      kept.Sublist ((f :: below).map (·.event)) ∧
      ∀ e ∈ called, r.flow = .call e ∧ ∀ e' ∈ kept ++ r.queued.toList, e'.id ≠ e.id := by
  have hqueue : (queuedBelow r below).map (·.event) = below.map (·.event) ++ r.queued.toList := by
    rw [queuedBelow_eq, List.map_append]
    cases r.queued <;> rfl
  have hstays : ∀ g : Frame, g.event = f.event → (g :: queuedBelow r below).map (·.event) =
      (none : Option Event).toList ++ (f :: below).map (·.event) ++ r.queued.toList := by
    intro g hg
    rw [List.map_cons, hg, hqueue]
    rfl
  have hnone : ∀ e ∈ (none : Option Event), r.flow = .call e ∧
      ∀ e' ∈ (f :: below).map (·.event) ++ r.queued.toList, e'.id ≠ e.id := by simp
  cases hflow : r.flow with
  | next =>
      rw [follow_next hflow, ← hflow]
      exact ⟨none, _, hstays f.advance rfl, .refl _, hnone⟩
  | suspend p =>
      rw [follow_suspend hflow, ← hflow]
      exact ⟨none, _, hstays (f.suspend p) rfl, .refl _, hnone⟩
  | call e =>
      cases hruns : isRunning ⟨f.await :: queuedBelow r below, r.voices⟩ e with
      | true =>
          rw [follow_refused hflow hruns, ← hflow]
          exact ⟨none, _, hstays f.advance rfl, .refl _, hnone⟩
      | false =>
          rw [follow_call hflow hruns]
          refine ⟨some e, (f :: below).map (·.event), ?_, .refl _, ?_⟩
          · show e :: (f.await :: queuedBelow r below).map (·.event) = _
            rw [hstays f.await rfl]
            rfl
          · intro e' he'
            obtain rfl := Option.some.inj he'
            refine ⟨rfl, fun e'' he'' => ?_⟩
            rw [← List.nil_append (List.map _ _), ← Option.toList_none,
              ← hstays f.await rfl] at he''
            obtain ⟨g, hg, rfl⟩ := List.mem_map.1 he''
            exact isRunning_eq_false_iff.1 hruns g hg
  | cancel =>
      rw [follow_cancel hflow, ← hflow]
      refine ⟨none, below.map (·.event), ?_, List.sublist_cons_self _ _, by simp⟩
      rw [Option.toList_none, List.nil_append]
      exact hqueue

/-- The events of a stack that has been settled are the last ones of the stack. -/
theorem events_settled {fs below : List Frame} {f : Frame} (h : settle fs = f :: below) :
    ((f :: below).map (·.event)).Sublist (fs.map (·.event)) := by
  obtain ⟨above, g, rfl, rfl, -, -⟩ := exists_of_settle_eq_cons h
  rw [List.map_cons, Frame.event_resumed, ← List.map_cons, List.map_append]
  exact List.sublist_append_right _ _

end Tracker

/-! ## Numbers that have been given -/

section

variable {load : String → Reported Scene}

/-- What an execution makes of the numbers: they grow, an event that it queues has a new one, and an
event that it calls has one that has been given. -/
structure NumbersLeft (w : World) (r : Effect World) : Prop where
  numbered : r.state.Numbered
  le : w.nextOrigin ≤ r.state.nextOrigin
  queued : ∀ e ∈ r.queued, w.nextOrigin ≤ e.id.origin ∧ e.id.origin < r.state.nextOrigin
  called : ∀ e, r.flow = .call e → e.id.origin < w.nextOrigin

theorem numbers_sceneLoad {w : World} (hw : w.Numbered) (f : Frame) (now : Nat) (path : String)
    (door : Option String) (voices : Voices) :
    NumbersLeft w (f.perform (World.stage load) now (.sceneLoad path door) voices w) := by
  obtain ⟨said, journal, hqueued, hstate⟩ :=
    Tracker.exists_perform_sceneLoad load f now path door voices w
  -- what is said before is no part of the setting
  have hsaid : (w.withJournal said).Numbered := hw.of_setting rfl
  obtain ⟨hnumbered, hle, hstart⟩ := hsaid.loadScene load path door
  refine ⟨?_, ?_, ?_, fun e he => by cases he⟩
  · rw [hstate]
    exact hnumbered.of_setting rfl
  · rw [hstate]
    exact hle
  · rw [hqueued, hstate]
    exact hstart

/-- An event that is called has the number of the caller or that of an event of the world. -/
theorem origin_of_callsAt {w : World} (hw : w.Numbered) {f : Frame} {op : Operation} {e : Event}
    (hf : f.event.id.origin < w.nextOrigin) (h : f.event.CallsAt w.library f.cursor op e) :
    e.id.origin < w.nextOrigin := by
  cases h with
  | named hname hfind => exact hw e (.inl ⟨_, hfind⟩)
  | inlined hbody => exact hf

theorem numbers_perform {w : World} (hw : w.Numbered) {f : Frame}
    (hf : f.event.id.origin < w.nextOrigin) (now : Nat) (op : Operation) (voices : Voices) :
    NumbersLeft w (f.perform (World.stage load) now op voices w) := by
  cases hscene : op.loadsScene with
  | false =>
      have hsetting : (f.perform (World.stage load) now op voices w).state.setting = w.setting :=
        (World.stage_keeps_setting load w.setting).perform hscene rfl
      refine ⟨hw.of_setting hsetting, (congrArg Setting.nextOrigin hsetting).ge, ?_, ?_⟩
      · rw [Frame.perform, queued_execute _ _ now _ _ voices _ hscene]
        simp
      · intro e hflow
        have hcalls := (World.stage_serves load w.library).calls_of_perform rfl hflow
        exact origin_of_callsAt hw hf hcalls
  | true =>
      cases op with
      | sceneLoad path door => exact numbers_sceneLoad hw f now path door voices
      | _ => cases hscene

/-! ## The stack -/

/-- All frames are of different events, and the numbers of all events have been given. -/
structure Numbers (c : Tracker × World) : Prop where
  numbered : c.2.Numbered
  given : ∀ e ∈ c.1.frames.map (·.event), e.id.origin < c.2.nextOrigin
  nodup : ((c.1.frames.map (·.event)).map (·.id)).Nodup

namespace Numbers

variable {c c' : Tracker × World}

/-- Nothing but the setting of the world matters. -/
theorem of_setting {t : Tracker} {w w' : World} (h : Numbers (t, w))
    (hsetting : w'.setting = w.setting) : Numbers (t, w') where
  numbered := h.numbered.of_setting hsetting
  given e he := by
    rw [show w'.nextOrigin = _ from congrArg Setting.nextOrigin hsetting]
    exact h.given e he
  nodup := h.nodup

/-- A scene begins with an empty stack. -/
theorem none {w : World} (hw : w.Numbered) : Numbers (.empty, w) :=
  ⟨hw, by simp [Tracker.empty], by simp [Tracker.empty]⟩

theorem aside (haside : Aside c c') (h : Numbers c) : Numbers c' := by
  cases haside with
  | @calls e w he hfree hworld =>
      obtain ⟨_, _, _, _, _, rfl⟩ := hworld
      refine ⟨h.numbered, ?_, ?_⟩
      · exact List.forall_mem_cons.2 ⟨h.numbered e he, h.given⟩
      · refine List.nodup_cons.2 ⟨?_, h.nodup⟩
        rw [List.map_map, List.mem_map]
        rintro ⟨f, hf, hid⟩
        exact Tracker.isRunning_eq_false_iff.1 hfree f hf hid
  | stirs hworld =>
      obtain ⟨_, _, _, _, _, rfl⟩ := hworld
      exact ⟨h.numbered, h.given, h.nodup⟩

variable {fs below : List Frame} {f : Frame} {voices : Voices} {w : World}

theorem settled (h : Numbers (⟨fs, voices⟩, w)) (hsettle : Tracker.settle fs = f :: below) :
    Numbers (⟨f :: below, voices⟩, w) where
  numbered := h.numbered
  given e he := h.given e ((Tracker.events_settled hsettle).subset he)
  nodup := ((Tracker.events_settled hsettle).map _).nodup h.nodup

/-- An execution whose numbers are as they should be leaves frames of different events. -/
theorem follow (load : String → Reported Scene) {r : Effect World}
    (h : Numbers (⟨f :: below, voices⟩, w)) (hr : NumbersLeft w r) :
    Numbers ((Tracker.follow (World.stage load) f below r).left.1, r.state) := by
  obtain ⟨called, kept, hevents, hsub, hcalled⟩ :=
    Tracker.exists_events_left (World.stage load) f below r
  have hgiven : ∀ e ∈ kept, e.id.origin < w.nextOrigin := fun e he => h.given e (hsub.subset he)
  -- a new number is not the number of a frame
  have hrest : ((kept ++ r.queued.toList).map (·.id)).Nodup := by
    rw [List.map_append, List.nodup_append]
    refine ⟨(hsub.map _).nodup h.nodup, by cases r.queued <;> simp, ?_⟩
    rintro i hi j hj rfl
    obtain ⟨e, he, hid⟩ := List.mem_map.1 hi
    obtain ⟨e', he', hid'⟩ := List.mem_map.1 hj
    have hlt := hgiven e he
    have hle := (hr.queued e' (Option.mem_toList.1 he')).1
    rw [hid] at hlt
    rw [hid'] at hle
    omega
  refine ⟨hr.numbered, ?_, ?_⟩
  · intro e he
    rw [hevents, List.mem_append, List.mem_append] at he
    rcases he with (he | he) | he
    · obtain ⟨hflow, -⟩ := hcalled e (Option.mem_toList.1 he)
      exact (hr.called e hflow).trans_le hr.le
    · exact (hgiven e he).trans_le hr.le
    · exact (hr.queued e (Option.mem_toList.1 he)).2
  · rw [hevents, List.append_assoc]
    cases called with
    | none => exact hrest
    | some e =>
        -- the event that is called was looked for among all others
        refine List.nodup_cons.2 ⟨?_, hrest⟩
        obtain ⟨-, hfree⟩ := hcalled e rfl
        intro hmem
        obtain ⟨e', he', hid⟩ := List.mem_map.1 hmem
        exact hfree e' he' hid

/-- Every turn leaves frames of different events. -/
theorem turn (load : String → Reported Scene) (now : Nat) (h : Numbers c) :
    Numbers (Tracker.turn (World.stage load) now c.1 c.2).left := by
  obtain ⟨⟨fs, voices⟩, w⟩ := c
  cases hsettle : Tracker.settle fs with
  | nil =>
      rw [Tracker.turn_idle hsettle]
      exact ⟨h.numbered, by simp [Tracker.Turn.left], by simp [Tracker.Turn.left]⟩
  | cons f below =>
      obtain ⟨op, hop, hturn, hleaves⟩ := Tracker.exists_left (World.stage load) now
        (show Tracker.settle (Tracker.frames ⟨fs, voices⟩) = f :: below from hsettle) w
      have hsettled := h.settled hsettle
      have hf : f.event.id.origin < w.nextOrigin :=
        hsettled.given f.event List.mem_cons_self
      have hperformed : NumbersLeft w (f.perform (World.stage load) now op voices w) :=
        numbers_perform h.numbered hf now op voices
      have hleft := hsettled.follow load hperformed
      rw [← hturn] at hleft
      exact hleft.of_setting (hleaves.value_eq fun _ _ => rfl)

end Numbers

end

namespace Session

section

variable [Interpreter] {sources : Sources} {s : Session}

theorem Reached.numbers (hs : Reached sources s) : Numbers s.moment :=
  ReachedWith.invariant (fun scene => .none (World.numbered_ofScene scene)) (fun _ _ => .aside)
    (fun now _ _ h => h.turn sources.scene now) (fun _ h => .none h.numbered)
    (fun _ w _ h => h.of_setting w.setting_flushDialog) hs

/-- In every session, over any scenes and scripts and whatever is pressed and wherever the player
walks, all frames on the stack are of different events, and so they are at every moment of the next
tick, whether it returns or not. -/
theorem frames_of_different_events (hs : Reached sources s) :
    (s.tracker.frames.map (·.event.id)).Nodup ∧
      ∀ c, Relation.ReflTransGen (Tracker.Goes (stage sources) (beginFrame sources s).now)
        (beginFrame sources s).moment c → (c.1.frames.map (·.event.id)).Nodup := by
  have hnodup : ∀ c : Tracker × World, Numbers c → (c.1.frames.map (·.event.id)).Nodup := by
    intro c hc
    have hids := hc.nodup
    rwa [List.map_map] at hids
  refine ⟨hnodup s.moment hs.numbers, ?_⟩
  intro c hpath
  refine hnodup c ?_
  induction hpath with
  | refl => exact (asides_beginFrame sources s).invariant (fun _ _ => .aside) hs.numbers
  | @tail c c' _ hgo ih =>
      have hleft := ih.turn sources.scene (beginFrame sources s).now
      rw [show Tracker.turn (World.stage sources.scene) _ c.1 c.2 = _ from hgo] at hleft
      exact hleft

end

/-! ## A tower behind a hall -/

/-- A hall from which an event goes on to a tower and waits there, while the tower has an event of
the same name. -/
def towerSources : Sources where
  scene path :=
    if path = "scene.json" then
      ([], .ok (scenery [.sceneLoad "tower.json" none, .wait 1000]))
    else ([], .ok (scenery [.wait 1000]))
  script _ := .error .notFound

/-- In the tower the start event of the hall is still running, and that of the tower is below it. -/
theorem frames_of_different_events_tower :
    ∃ s, Reached towerSources s ∧
      s.tracker.frames.map (·.event.name) = [some Event.startName, some Event.startName] ∧
      (s.tracker.frames.map (·.event.id)).Nodup ∧
      ∀ c, Relation.ReflTransGen (Tracker.Goes (stage towerSources) (beginFrame towerSources s).now)
        (beginFrame towerSources s).moment c → (c.1.frames.map (·.event.id)).Nodup := by
  have hplay : ∃ lines s t w, load towerSources .standard "scene.json" = (lines, .ok s) ∧
      Returns towerSources s (.suspended, t, w) ∧
      (finishFrame towerSources .suspended
        { beginFrame towerSources s with tracker := t, world := w }).tracker.frames.map
          (·.event.name) = [some Event.startName, some Event.startName] :=
    ⟨_, _, _, _, rfl, .more rfl (.ended rfl), rfl⟩
  obtain ⟨lines, s, t, w, hload, hreturns, hnames⟩ := hplay
  rw [← frame_eq hreturns] at hnames
  have hs : Reached towerSources (frame towerSources s) :=
    .frame (.loaded hload) hreturns fun _ _ => trivial
  exact ⟨_, hs, hnames, frames_of_different_events hs⟩

end Session

end Cutscene
