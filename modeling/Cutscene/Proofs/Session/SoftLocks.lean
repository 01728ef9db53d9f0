import Cutscene.Proofs.Session.Playing
import Cutscene.Script.Interpreter

/-!
# No soft locks

The lock of the player, the mark that asks for a key and the options are set and cleared by
different operations, and events nest. What holds all along is that each of them is answered for:
the player is locked by an open box or by a frame in the middle of a fade, and the mark and the
options belong to a frame in the middle of waiting and choosing (`Answered`). When nothing is left
to run no frame answers for anything, and the box is closed (`idle_frame_releases`).
-/

namespace Cutscene

/-- Whatever is shown or locked, something answers for it. -/
structure Answered (fs : List Frame) (g : Signs) : Prop where
  cursor : g.cursor = true → ∃ f ∈ fs, f.Amid Operation.isKeyWait
  options : g.options ≠ none → ∃ f ∈ fs, f.Amid Operation.isSelection
  locked : g.locked = true → g.isOpen = false → ∃ f ∈ fs, f.Amid Operation.isFade
  expression : g.expression ≠ none → g.isOpen = true

namespace Answered

variable {fs fs' : List Frame} {g : Signs}

theorem none : Answered [] .none where
  cursor h := absurd h Bool.false_ne_true
  options h := absurd rfl h
  locked h := absurd h Bool.false_ne_true
  expression h := absurd rfl h

/-- It is enough that no frame in the middle of an operation is lost. -/
theorem mono (h : Answered fs g)
    (hmem : ∀ kind, (∃ f ∈ fs, f.Amid kind) → ∃ f ∈ fs', f.Amid kind) : Answered fs' g where
  cursor hcursor := hmem _ (h.cursor hcursor)
  options hoptions := hmem _ (h.options hoptions)
  locked hlocked hclosed := hmem _ (h.locked hlocked hclosed)
  expression := h.expression

theorem append (h : Answered fs g) (above : List Frame) : Answered (above ++ fs) g :=
  h.mono fun _ ⟨f, hf, hamid⟩ => ⟨f, List.mem_append_right above hf, hamid⟩

/-- With no frame left and the box closed, nothing is shown and the player can walk. -/
theorem eq_none (h : Answered [] g) (hclosed : g.isOpen = false) : g = .none := by
  have hnobody : ∀ kind, ¬∃ f ∈ ([] : List Frame), f.Amid kind := by
    rintro kind ⟨f, hf, -⟩
    exact List.not_mem_nil hf
  have hcursor : g.cursor = false := Bool.eq_false_iff.2 fun hg => hnobody _ (h.cursor hg)
  have hoptions : g.options = .none := Decidable.byContradiction fun hg => hnobody _ (h.options hg)
  have hlocked : g.locked = false := Bool.eq_false_iff.2 fun hg => hnobody _ (h.locked hg hclosed)
  have hexpression : g.expression = .none := Decidable.byContradiction fun hg =>
    Bool.false_ne_true (hclosed.symm.trans (h.expression hg))
  calc g = ⟨g.isOpen, g.cursor, g.options, g.expression, g.locked⟩ := rfl
    _ = .none := by rw [hclosed, hcursor, hoptions, hexpression, hlocked]; rfl

/-- Every turn leaves somebody to answer for what is shown and locked. -/
theorem turn {load : String → Reported Scene} (now : Nat) {c : Tracker × World}
    (h : Answered c.1.frames c.2.signs) :
    let c' := (Tracker.turn (World.stage load) now c.1 c.2).left
    Answered c'.1.frames c'.2.signs := by
  obtain ⟨⟨fs, voices⟩, w⟩ := c
  intro c'
  cases hsettle : Tracker.settle fs with
  | nil =>
      -- frames that have ended answer for nothing
      have hc' : c' = (⟨[], voices⟩, w) := Tracker.left_turn_idle hsettle voices w
      rw [hc']
      refine h.mono fun kind ⟨f, hf, hamid⟩ => ?_
      have hmem := hamid.mem_settle hf
      rw [hsettle] at hmem
      exact absurd hmem List.not_mem_nil
  | cons f below =>
      obtain ⟨op, hop, hleaves, hsigns, hsignals⟩ :=
        Tracker.exists_signals load now (t := ⟨fs, voices⟩) hsettle w
      rw [show c'.2.signs = _ from hsigns]
      constructor
      · intro hcursor
        refine hleaves.exists_amid hsettle hop ?_
        exact (hsignals.cursor hcursor).imp id fun ⟨hkind, hbefore⟩ => ⟨hkind, h.cursor hbefore⟩
      · intro hoptions
        refine hleaves.exists_amid hsettle hop ?_
        exact (hsignals.options hoptions).imp id fun ⟨hkind, hbefore⟩ => ⟨hkind, h.options hbefore⟩
      · intro hlocked hclosed
        refine hleaves.exists_amid hsettle hop ?_
        exact (hsignals.locked hlocked hclosed).imp id
          fun ⟨hkind, hbefore, hopen⟩ => ⟨hkind, h.locked hbefore hopen⟩
      · exact fun hexpression => hsignals.expression h.expression hexpression

end Answered

namespace Session

/-- After every frame whose tick has left nothing to run, in any session over any scenes and scripts
and whatever is pressed and wherever the player walks, the box is closed, the player can walk, and
neither the mark that asks for a key nor options nor an expression are shown. -/
theorem idle_frame_releases [Interpreter] {sources : Sources} {s : Session} {t : Tracker} {w : World}
    (hs : Played sources s) (hidle : Returns sources s (.idle, t, w)) :
    let world := (frame sources s).world
    world.narrative.isOpen = false ∧ world.movementLocked = false ∧
      world.narrative.cursor = false ∧ world.narrative.options = none ∧
      world.narrative.expression = none := by
  have hcall : ∀ (es : List Event) fs g, Answered fs g → Answered (es.map Frame.start ++ fs) g :=
    fun es fs g h => h.append _
  have hbefore : Answered s.tracker.frames s.world.signs :=
    hs.invariant .none hcall fun now c _ h => h.turn now
  have hticked : Answered t.frames w.signs :=
    hidle.keeps (Q := fun _ _ => True) hcall (fun now c _ h => h.turn now) (fun _ _ => trivial)
      hbefore
  have hframes : t.frames = [] := hidle.frames_eq_nil rfl
  rw [hframes] at hticked
  have hclosed : (closeIdleBox .idle
      { beginFrame sources s with tracker := t, world := w }).world.signs = .none := by
    cases hopen : w.narrative.isOpen with
    | true =>
        rw [closeIdleBox, if_pos ⟨rfl, hopen⟩]
        rfl
    | false =>
        rw [closeIdleBox, if_neg fun h => Bool.false_ne_true (hopen.symm.trans h.2)]
        exact hticked.eq_none hopen
  have hsigns : (frame sources s).world.signs = .none := by
    rw [frame_eq hidle]
    exact (Apart.rest sources _).signs.trans hclosed
  intro world
  have hworld : world.signs = .none := hsigns
  exact ⟨congrArg Signs.isOpen hworld, congrArg Signs.locked hworld, congrArg Signs.cursor hworld,
    congrArg Signs.options hworld, congrArg Signs.expression hworld⟩

/-! ## A greeting -/

/-- A scene that greets and waits for the key. -/
def greetingSources : Sources := scenerySources [.say ⟨"Hi.", some "smile", -1, false⟩, .waitForKey]

/-- After the greeting the player is locked in front of an open box until the key is pressed. -/
theorem idle_frame_releases_greeting :
    ∃ s t w, Played greetingSources s ∧ s.world.narrative.isOpen = true ∧
      s.world.movementLocked = true ∧ s.world.narrative.cursor = true ∧
      Returns greetingSources s (.idle, t, w) ∧
      let world := (frame greetingSources s).world
      world.narrative.isOpen = false ∧ world.movementLocked = false ∧
        world.narrative.cursor = false ∧ world.narrative.options = none ∧
        world.narrative.expression = none := by
  have hplay : ∃ lines s t w, load greetingSources .standard "scene.json" = (lines, .ok s) ∧
      Returns greetingSources s (.suspended, t, w) ∧
      let s' := press .activate (finishFrame greetingSources .suspended
        { beginFrame greetingSources s with tracker := t, world := w })
      s'.world.narrative.isOpen = true ∧ s'.world.movementLocked = true ∧
        s'.world.narrative.cursor = true ∧ ∃ t' w', Returns greetingSources s' (.idle, t', w') :=
    ⟨_, _, _, _, rfl, .more rfl (.ended rfl), rfl, rfl, rfl, _, _, .more rfl (.ended rfl)⟩
  obtain ⟨lines, s, t, w, hload, hfirst, hopen, hlocked, hcursor, t', w', hsecond⟩ := hplay
  rw [← frame_eq hfirst] at hopen hlocked hcursor hsecond
  have hs : Played greetingSources (press .activate (frame greetingSources s)) :=
    .press .activate (.frame (.loaded hload) hfirst fun _ _ => trivial)
  exact ⟨_, t', w', hs, hopen, hlocked, hcursor, hsecond, idle_frame_releases hs hsecond⟩

end Session

end Cutscene
