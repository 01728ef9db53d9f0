import Cutscene.Proofs.Session.Playing
import Cutscene.Script.Interpreter

/-!
# Who holds the lock

An open box and a fade under way both keep the player from walking, but there is one lock for all of
them, and each clears it when it is done. So a player who is held is locked until an operation that
ends one of them leaves another behind (`ReleasesUntimely`). This is the only way to lose the lock:
every other turn keeps it, and without such turns a player who is held cannot walk and takes no
press from the dialog (`locked_while_held`). A fade that ends over an open box is such a turn, and
it leaves the box open and the player free to walk (`fade_frees_greeted`).
-/

namespace Cutscene

/-- Something holds the player: the box is open, or a frame is in the middle of a fade. -/
def Holds (fs : List Frame) (g : Signs) : Prop :=
  g.isOpen = true ∨ ∃ f ∈ fs, f.Amid Operation.isFade

/-- A player who is held is locked. -/
def Guarded (fs : List Frame) (g : Signs) : Prop := Holds fs g → g.locked = true

/-- An execution frees the player: it closes the box, or it ends a fade. -/
def Operation.Frees (op : Operation) (flow : Flow) : Prop :=
  op = .hideBox ∨ op.isFade = true ∧ flow = .next

/-- The next turn frees the player, and something still holds the player after it. -/
def ReleasesUntimely (load : String → Reported Scene) (now : Nat) (c : Tracker × World) : Prop :=
  ∃ f below op, Tracker.settle c.1.frames = f :: below ∧ f.operation? = some op ∧
    let r := f.perform (World.stage load) now op c.1.voices c.2
    op.Frees r.flow ∧ Holds below r.state.signs

/-- A turn that ends the tick frees nobody. -/
theorem not_releasesUntimely_of_ended {load : String → Reported Scene} {now : Nat} {t t' : Tracker}
    {w w' : World} {status : TickStatus}
    (h : Tracker.turn (World.stage load) now t w = .ended status t' w') :
    ¬ReleasesUntimely load now (t, w) := by
  rintro ⟨f, below, op, hsettle, hop, hfrees, -⟩
  obtain ⟨op', hop', hfollow, -⟩ := Tracker.exists_left (World.stage load) now hsettle w
  obtain rfl : op = op' := Option.some.inj (hop.symm.trans hop')
  have hflow : (f.perform (World.stage load) now op t.voices w).flow = .next := by
    rcases hfrees with rfl | ⟨-, hnext⟩
    · rfl
    · exact hnext
  rw [hfollow, Tracker.follow_next hflow] at h
  cases h

namespace Signals

variable {entering : Bool} {op : Operation} {flow : Flow} {g g' : Signs}

/-- After an execution that frees the player, the player is free. -/
theorem unlocked (h : Signals entering op flow g g') (hfrees : op.Frees flow) :
    g'.locked = false := by
  rcases hfrees with rfl | ⟨hfade, rfl⟩
  · cases h with
    | closes => rfl
    | quiet hop | fades hop _ | faded hop => exact absurd hop Bool.false_ne_true
  · cases h with
    | faded _ => rfl
    | quiet hop => cases op <;> simp_all [Operation.isQuiet, Operation.isFade]
    | _ => exact absurd hfade Bool.false_ne_true

/-- An execution that does not free the player keeps the lock. -/
theorem keeps_lock (h : Signals entering op flow g g') (hfrees : ¬op.Frees flow)
    (hlocked : g.locked = true) : g'.locked = true := by
  cases h with
  | begins _ => simp [hlocked]
  | closes => exact absurd (.inl rfl) hfrees
  | faded hop => exact absurd (.inr ⟨hop, rfl⟩) hfrees
  | fades _ hkept => exact hkept.elim id fun h => h.2.trans hlocked
  | _ => exact hlocked

/-- If the player was locked in front of an open box, this stays so. -/
theorem locks_open (h : Signals entering op flow g g') (hfrees : ¬op.Frees flow)
    (hbefore : g.isOpen = true → g.locked = true) (hopen : g'.isOpen = true) :
    g'.locked = true := by
  cases h with
  | begins _ =>
      cases hwas : g.isOpen with
      | true => simp [hbefore hwas]
      | false => simp
  | closes => exact absurd hopen Bool.false_ne_true
  | faded hop => exact absurd (.inr ⟨hop, rfl⟩) hfrees
  | fades _ hkept => exact hkept.elim id fun h => h.2.trans (hbefore hopen)
  | _ => exact hbefore hopen

/-- A fade that is not over has locked the player when it began. -/
theorem locks_fade (h : Signals entering op flow g g') (hop : op.isFade = true) {p : Progress}
    (hflow : flow = .suspend p) (hbefore : entering = false → g.locked = true) :
    g'.locked = true := by
  cases h with
  | fades _ hkept => exact hkept.elim id fun h => h.2.trans (hbefore h.1)
  | faded _ => exact absurd hflow (by simp)
  | quiet hquiet => cases op <;> simp_all [Operation.isQuiet, Operation.isFade]
  | _ => exact absurd hop Bool.false_ne_true

end Signals

/-- The fade that a frame is in the middle of is its present operation. -/
theorem isFade_of_amid_suspend {f : Frame} {op : Operation} {p : Progress}
    (hop : f.operation? = some op) (hamid : (f.suspend p).Amid Operation.isFade) :
    op.isFade = true := by
  obtain ⟨op', hop', hfade⟩ := hamid.operation
  obtain rfl : op' = op := Option.some.inj (hop'.symm.trans hop)
  exact hfade

namespace Guarded

variable {fs : List Frame} {g : Signs}

theorem none : Guarded [] .none := by
  rintro (hopen | ⟨f, hf, -⟩)
  · exact absurd hopen Bool.false_ne_true
  · exact absurd hf List.not_mem_nil

/-- Events that are called hold nobody before they run. -/
theorem append (h : Guarded fs g) (es : List Event) : Guarded (es.map Frame.start ++ fs) g := by
  rintro (hopen | ⟨f, hf, hamid⟩)
  · exact h (.inl hopen)
  · rcases List.mem_append.1 hf with hf | hf
    · obtain ⟨e, -, rfl⟩ := List.mem_map.1 hf
      exact absurd hamid (Frame.not_amid_start e)
    · exact h (.inr ⟨f, hf, hamid⟩)

/-- After an untimely release a player who is held is not locked. -/
theorem not_of_releasesUntimely {load : String → Reported Scene} {now : Nat} {c : Tracker × World}
    (h : ReleasesUntimely load now c) :
    let c' := (Tracker.turn (World.stage load) now c.1 c.2).left
    ¬Guarded c'.1.frames c'.2.signs := by
  obtain ⟨f, below, op, hsettle, hop, hfrees, hholds⟩ := h
  obtain ⟨op', hop', hleaves, hsigns, hsignals⟩ := Tracker.exists_signals load now hsettle c.2
  obtain rfl : op = op' := Option.some.inj (hop.symm.trans hop')
  intro c' hguarded
  rw [show c'.2.signs = _ from hsigns] at hguarded
  have hlocked := hguarded (hholds.imp id fun ⟨x, hx, hamid⟩ =>
    ⟨x, hleaves.mem_of_mem_below hx, hamid⟩)
  exact absurd ((hsignals.unlocked hfrees).symm.trans hlocked) Bool.false_ne_true

/-- A turn keeps a player who is held locked, unless it releases untimely. -/
theorem turn {load : String → Reported Scene} (now : Nat) {c : Tracker × World}
    (h : Guarded c.1.frames c.2.signs) (htimely : ¬ReleasesUntimely load now c) :
    let c' := (Tracker.turn (World.stage load) now c.1 c.2).left
    Guarded c'.1.frames c'.2.signs := by
  obtain ⟨⟨fs, voices⟩, w⟩ := c
  intro c'
  cases hsettle : Tracker.settle fs with
  | nil =>
      have hc' : c' = (⟨[], voices⟩, w) := Tracker.left_turn_idle hsettle voices w
      rw [hc']
      rintro (hopen | ⟨f, hf, -⟩)
      · exact h (.inl hopen)
      · exact absurd hf List.not_mem_nil
  | cons f below =>
      obtain ⟨op, hop, hleaves, hsigns, hsignals⟩ :=
        Tracker.exists_signals load now (t := ⟨fs, voices⟩) hsettle w
      rw [show c'.2.signs = _ from hsigns]
      intro hholds
      by_cases hfrees : op.Frees (f.perform (World.stage load) now op voices w).flow
      · refine absurd ⟨f, below, op, hsettle, hop, hfrees, hholds.imp id ?_⟩ htimely
        rintro ⟨x, hx, hamid⟩
        rcases hleaves.mem_below_or_eq hx hamid with hbelow | ⟨p, hflow, rfl⟩
        · exact ⟨x, hbelow, hamid⟩
        · -- an execution that frees the player does not leave a fade
          have hfade := isFade_of_amid_suspend hop hamid
          rcases hfrees with rfl | ⟨-, hnext⟩
          · exact absurd hfade Bool.false_ne_true
          · exact absurd (hnext.symm.trans hflow) (by simp)
      · rcases hholds with hopen | ⟨x, hx, hamid⟩
        · exact hsignals.locks_open hfrees (fun hwas => h (.inl hwas)) hopen
        · rcases hleaves.mem_below_or_eq hx hamid with hbelow | ⟨p, hflow, rfl⟩
          · -- a fade further down has held the player before
            have hmem : x ∈ Tracker.settle fs := hsettle ▸ List.mem_cons_of_mem f hbelow
            exact hsignals.keeps_lock hfrees (h (.inr ⟨x, hamid.of_mem_settle hmem, hamid⟩))
          · have hfade := isFade_of_amid_suspend hop hamid
            refine hsignals.locks_fade hfade hflow fun hentered => ?_
            have hwas : f.Amid Operation.isFade :=
              ⟨hentered, (Tracker.settled hsettle).1, op, hop, hfade⟩
            have hmem : f ∈ Tracker.settle fs := hsettle ▸ List.mem_cons_self
            exact h (.inr ⟨f, hwas.of_mem_settle hmem, hwas⟩)

end Guarded

namespace Session

/-- A locked player neither walks nor pushes a button. -/
theorem beginFrame_of_locked [Interpreter] (sources : Sources) {s : Session}
    (h : s.world.movementLocked = true) :
    let s' := beginFrame sources s
    s'.tracker = s.tracker ∧ s'.world.player = s.world.player ∧ s'.world.input = s.world.input := by
  have hwalk : ∃ world pendingWalk, takeWalk sources s = { s with world, pendingWalk } ∧
      world.movementLocked = true ∧ world.player = s.world.player ∧
        world.input = s.world.input := by
    unfold takeWalk
    cases hpending : s.pendingWalk with
    | none => exact ⟨s.world, s.pendingWalk, rfl, h, rfl, rfl⟩
    | some p =>
        simp only [walk, h, if_true]
        exact ⟨_, none, rfl, h, rfl, rfl⟩
  obtain ⟨world, pendingWalk, htaken, hlocked, hplayer, hinput⟩ := hwalk
  have hpush : beginFrame sources s = { s with world, pendingWalk } := by
    rw [beginFrame, htaken, pushButton]
    simp [hlocked]
  intro s'
  rw [show s' = _ from hpush]
  exact ⟨rfl, hplayer, hinput⟩

/-- From a state in which a player who is held is locked, a turn leads to another one unless it
releases untimely. So if no turn of a session does so, then after every frame a player who is held
is locked, and at the beginning of the next frame neither walks nor takes a press with a button. -/
theorem locked_while_held [Interpreter] (sources : Sources) :
    (∀ (now : Nat) (c : Tracker × World), Guarded c.1.frames c.2.signs →
      let c' := (Tracker.turn (stage sources) now c.1 c.2).left
      (Guarded c'.1.frames c'.2.signs ↔ ¬ReleasesUntimely sources.scene now c)) ∧
    ∀ s, PlayedWith sources (fun now c => ¬ReleasesUntimely sources.scene now c) s →
      (s.world.narrative.isOpen = true ∨ ∃ f ∈ s.tracker.frames, f.Amid Operation.isFade) →
        s.world.movementLocked = true ∧
          (beginFrame sources s).tracker = s.tracker ∧
          (beginFrame sources s).world.player = s.world.player ∧
          (beginFrame sources s).world.input = s.world.input := by
  constructor
  · intro now c hguarded
    exact ⟨fun hafter hreleases => Guarded.not_of_releasesUntimely hreleases hafter,
      hguarded.turn now⟩
  · intro s hs hholds
    have hguarded : Guarded s.tracker.frames s.world.signs :=
      hs.invariant .none (fun es fs g h => h.append es) fun now c htimely h => h.turn now htimely
    have hlocked : s.world.movementLocked = true := hguarded hholds
    exact ⟨hlocked, beginFrame_of_locked sources hlocked⟩

/-! ## A fade alone -/

/-- A fade begins on a stage where nobody is held, and in the middle of it, as nothing else ends, the
player is locked. -/
theorem locked_while_held_fading :
    let sources := scenerySources [.fadeOut 200]
    ∃ s₀ s, s = frame sources s₀ ∧
      (let c := ((beginFrame sources s₀).tracker, (beginFrame sources s₀).world)
      let c' := (Tracker.turn (stage sources) (beginFrame sources s₀).now c.1 c.2).left
      Guarded c.1.frames c.2.signs ∧ Guarded c'.1.frames c'.2.signs ∧
        ¬ReleasesUntimely sources.scene (beginFrame sources s₀).now c) ∧
      PlayedWith sources (fun now c => ¬ReleasesUntimely sources.scene now c) s ∧
      (∃ f ∈ s.tracker.frames, f.Amid Operation.isFade) ∧ s.world.movementLocked = true ∧
      (beginFrame sources s).tracker = s.tracker ∧
      (beginFrame sources s).world.player = s.world.player ∧
      (beginFrame sources s).world.input = s.world.input := by
  intro sources
  have hplay : ∃ lines s t w f, load sources .standard "scene.json" = (lines, .ok s) ∧
      Tracker.turn (stage sources) (beginFrame sources s).now (beginFrame sources s).tracker
        (beginFrame sources s).world = .ended .suspended t w ∧
      (finishFrame sources .suspended
        { beginFrame sources s with tracker := t, world := w }).tracker.frames = [f] ∧
      f.justEntered = false ∧ f.awaitingChild = false ∧ f.operation? = some (.fadeOut 200) :=
    ⟨_, _, _, _, _, rfl, rfl, rfl, rfl, rfl, rfl⟩
  obtain ⟨lines, s, t, w, f, hload, hturn, hframes, hentered, hfree, hop⟩ := hplay
  have hreturns : Returns sources s (.suspended, t, w) := .ended hturn
  rw [← frame_eq hreturns] at hframes
  have htimely := not_releasesUntimely_of_ended hturn
  have hguarded : Guarded (beginFrame sources s).tracker.frames
      (beginFrame sources s).world.signs := by
    obtain ⟨scene, hapart⟩ := exists_apart_of_load hload
    refine (hapart.trans (Apart.beginFrame sources s)).keeps (fun es fs g h => h.append es) ?_
    rw [signs_blank]
    exact .none
  have hs : PlayedWith sources (fun now c => ¬ReleasesUntimely sources.scene now c)
      (frame sources s) := by
    refine .frame (.loaded hload) hreturns fun c hpath => ?_
    rcases Relation.ReflTransGen.cases_head hpath with rfl | ⟨c', hgo, -⟩
    · exact htimely
    · exact absurd (hturn.symm.trans hgo) (by simp)
  have hfade : ∃ f ∈ (frame sources s).tracker.frames, f.Amid Operation.isFade :=
    ⟨f, by rw [hframes]; exact List.mem_singleton_self f, hentered, hfree, _, hop, rfl⟩
  obtain ⟨hturns, hlocked⟩ := locked_while_held sources
  exact ⟨s, _, rfl, ⟨hguarded, (hturns _ (_, _) hguarded).2 htimely, htimely⟩, hs, hfade,
    hlocked _ hs (.inr hfade)⟩

/-! ## A fade in front of an open box -/

/-- A fade that ends after a text has opened the box frees the player: the box is open and waits for
the key, and the player is not locked. -/
theorem fade_frees_greeted :
    let sources := scenerySources [.say ⟨"Hi.", none, -1, false⟩, .fadeIn 200, .waitForKey]
    ∃ lines s r, load sources .standard "scene.json" = (lines, .ok s) ∧ Returns sources s r ∧
      let s' := frame sources s
      s'.world.narrative.isOpen = true ∧ s'.world.narrative.cursor = true ∧
        s'.world.movementLocked = false := by
  intro sources
  have hplay : ∃ lines s t w, load sources .standard "scene.json" = (lines, .ok s) ∧
      Returns sources s (.suspended, t, w) ∧
      let s' := finishFrame sources .suspended
        { beginFrame sources s with tracker := t, world := w }
      s'.world.narrative.isOpen = true ∧ s'.world.narrative.cursor = true ∧
        s'.world.movementLocked = false :=
    ⟨_, _, _, _, rfl, .more rfl (.more rfl (.ended rfl)), rfl, rfl, rfl⟩
  obtain ⟨lines, s, t, w, hload, hreturns, hrest⟩ := hplay
  rw [← frame_eq hreturns] at hrest
  exact ⟨lines, s, _, hload, hreturns, hrest⟩

end Session

end Cutscene
