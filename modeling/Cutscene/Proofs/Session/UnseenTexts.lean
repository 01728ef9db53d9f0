import Cutscene.Proofs.Session.Playing
import Cutscene.Proofs.Thread.Watching
import Cutscene.Script.Interpreter

/-!
# Texts behind a closed box

When nothing is left to run, a box that is open is closed, and what it shows becomes a page. A box
that is closed already is left as it is. No text stays behind then, as long as a closed box holds
none (`World.HidesNothing`).

A text opens the box when it begins. If it is typed out over several frames, an event that is called
meanwhile may hide the box, and the text goes on behind it (`TypesUnseen`). This is the only way in
which a closed box comes to hold text (`hidesNothing_turn_iff`), and what is typed last in this way
is no page when nothing is left to run (`typed_behind_hush`).
-/

namespace Cutscene

/-- A closed box holds no text. -/
def World.HidesNothing (w : World) : Prop := w.narrative.isOpen = false → w.narrative.text = ""

/-- The next turn goes on with a text whose box is closed, and shows more of it. -/
def TypesUnseen (load : String → Reported Scene) (now : Nat) (c : Tracker × World) : Prop :=
  ∃ f below say, Tracker.settle c.1.frames = f :: below ∧ f.operation? = some (.say say) ∧
    f.justEntered = false ∧ c.2.narrative.isOpen = false ∧
    (f.perform (World.stage load) now (.say say) c.1.voices c.2).state.narrative.text ≠
      c.2.narrative.text

/-! ## What operations do to the text -/

/-- Whether an operation has nothing to do with the text in the box. -/
def Operation.isMute : Operation → Bool
  | say _ => false
  | hideBox => false
  | _ => true

/-- A stage on which no text is shown or taken away. -/
def Stage.muted {σ : Type} (stage : Stage σ) : Stage σ :=
  { stage with
    closeBox := id
    setText := fun _ s => s
    appendText := fun _ s => s }

theorem World.text_showOptions (first second : String) (highlighted : Nat) (w : World) :
    (w.showOptions first second highlighted).narrative.text = w.narrative.text := by
  unfold showOptions
  split <;> rfl

theorem World.text_hideOptions (w : World) : w.hideOptions.narrative.text = w.narrative.text := by
  unfold hideOptions
  split <;> rfl

theorem World.text_entityCue (name : String) (cue : Cue) (w : World) :
    (w.entityCue name cue).narrative.text = w.narrative.text := by
  unfold entityCue
  split
  · rfl
  · dsimp only
    split <;> rfl

/-- On a world that is muted nothing changes the text. -/
theorem World.muted_keeps (load : String → Reported Scene) (text : String) :
    (stage load).muted.Keeps (·.narrative.text = text) where
  note _ _ h := h
  setFlag _ _ h := h
  unsetFlag _ _ h := h
  consume _ _ h := h
  openBox _ h := h
  closeBox _ h := h
  setText _ _ h := h
  appendText _ _ h := h
  setOverlay _ _ h := h
  lockMovement _ _ h := h
  showCursor _ _ h := h
  showOptions _ _ _ w h := (w.text_showOptions _ _ _).trans h
  hideOptions w h := w.text_hideOptions.trans h
  showExpression _ _ h := h
  dialogClick _ h := h
  playMusic _ _ _ h := h
  stopMusic _ h := h
  pauseMusic _ h := h
  resumeMusic _ h := h
  entityCue name cue w h := (w.text_entityCue name cue).trans h
  setTile _ _ _ _ _ h := h

section

variable {load : String → Reported Scene}

/-- A mute operation does on a muted stage what it does anyway. -/
theorem execute_muted {σ : Type} (stage : Stage σ) (event : Event) (position : Nat)
    {op : Operation} (hop : op.isMute = true) (now : Nat) (entering : Bool) (progress : Progress)
    (voices : Voices) (s : σ) :
    execute stage.muted event position op now entering progress voices s =
      execute stage event position op now entering progress voices s := by
  cases op with
  | say | hideBox => exact absurd hop Bool.false_ne_true
  | _ => rfl

/-- A mute operation leaves the text as it is. -/
theorem text_execute_of_isMute (event : Event) (position : Nat) {op : Operation}
    (hop : op.isMute = true) (now : Nat) (entering : Bool) (progress : Progress) (voices : Voices)
    (w : World) :
    let r := execute (World.stage load) event position op now entering progress voices w
    r.state.narrative.text = w.narrative.text :=
  World.value_execute (v := fun w => w.narrative.text) (World.muted_keeps load)
    (fun _ _ hlasting => congrArg (fun l : Lasting => l.narrative.text) hlasting)
    (execute_muted _ event position hop now entering progress voices w)

namespace Signals

variable {entering : Bool} {op : Operation} {flow : Flow} {g g' : Signs}

/-- A text opens the box when it begins. -/
theorem isOpen_say {say : Say} (h : Signals entering (.say say) flow g g') :
    g'.isOpen = (entering || g.isOpen) := by
  cases h with
  | begins hentering => rw [hentering, Bool.true_or]
  | goesOn hentering => rw [hentering, Bool.false_or]
  | quiet hop | fades hop _ | faded hop => exact absurd hop Bool.false_ne_true

/-- A mute operation neither opens nor closes the box. -/
theorem isOpen_of_isMute (h : Signals entering op flow g g') (hop : op.isMute = true) :
    g'.isOpen = g.isOpen := by
  cases h with
  | begins | goesOn | closes => exact absurd hop Bool.false_ne_true
  | _ => rfl

end Signals

/-! ## Turns -/

/-- What makes an execution leave text in a closed box that held none. -/
theorem hidesNothing_perform_iff (f : Frame) (now : Nat) (op : Operation) (voices : Voices)
    {w : World} (h : w.HidesNothing) :
    let r := f.perform (World.stage load) now op voices w
    r.state.HidesNothing ↔ ¬∃ say, op = .say say ∧ f.justEntered = false ∧
      w.narrative.isOpen = false ∧ r.state.narrative.text ≠ w.narrative.text := by
  intro r
  have hsignals : Signals f.justEntered op r.flow w.signs r.state.signs :=
    signals_execute f.event f.cursor op now f.justEntered f.progress voices _
  have hmuted : op.isMute = true → r.state.HidesNothing := by
    intro hmute
    have hopen : r.state.narrative.isOpen = w.narrative.isOpen := hsignals.isOpen_of_isMute hmute
    have htext : r.state.narrative.text = w.narrative.text :=
      text_execute_of_isMute f.event f.cursor hmute now f.justEntered f.progress voices _
    rw [World.HidesNothing, hopen, htext]
    exact h
  cases op with
  | say say =>
      have hopen : r.state.narrative.isOpen = (f.justEntered || w.narrative.isOpen) :=
        hsignals.isOpen_say
      cases hentered : f.justEntered with
      | true =>
          refine iff_of_true (fun hclosed => ?_) (by simp)
          rw [hopen, hentered] at hclosed
          cases hclosed
      | false =>
          rw [hentered, Bool.false_or] at hopen
          cases hwas : w.narrative.isOpen with
          | true =>
              refine iff_of_true (fun hclosed => ?_) (by simp)
              rw [hopen, hwas] at hclosed
              cases hclosed
          | false =>
              -- the text was empty, so more of it is any of it
              rw [World.HidesNothing, hopen, hwas, h hwas]
              simp
  | hideBox => exact iff_of_true (fun _ => rfl) (by simp)
  | _ => exact iff_of_true (hmuted rfl) (by simp)

/-- A turn that leaves the box open types nothing unseen. -/
theorem not_typesUnseen_of_isOpen {now : Nat} {c : Tracker × World}
    (h : (Tracker.turn (World.stage load) now c.1 c.2).left.2.narrative.isOpen = true) :
    ¬TypesUnseen load now c := by
  -- a text that goes on does not open the box
  rintro ⟨f, below, say, hsettle, hop, hentered, hclosed, -⟩
  obtain ⟨op, hop', -, hsigns, hsignals⟩ := Tracker.exists_signals load now hsettle c.2
  obtain rfl := Option.some.inj (hop.symm.trans hop')
  have hopen := hsignals.isOpen_say
  rw [← hsigns, hentered, Bool.false_or] at hopen
  exact absurd ((hopen.symm.trans h).symm.trans hclosed) (by simp)

/-- If a closed box holds no text, this stays so in a turn, unless the turn types unseen. -/
theorem hidesNothing_turn_iff (now : Nat) {c : Tracker × World} (h : c.2.HidesNothing) :
    (Tracker.turn (World.stage load) now c.1 c.2).left.2.HidesNothing ↔
      ¬TypesUnseen load now c := by
  obtain ⟨⟨fs, voices⟩, w⟩ := c
  cases hsettle : Tracker.settle fs with
  | nil =>
      rw [Tracker.turn_idle hsettle]
      refine iff_of_true h ?_
      rintro ⟨f, below, say, hcons, -⟩
      cases hsettle.symm.trans hcons
  | cons f below =>
      obtain ⟨op, hop, -, hleaves⟩ :=
        Tracker.exists_left (World.stage load) now (t := ⟨fs, voices⟩) hsettle w
      have hunseen : TypesUnseen load now (⟨fs, voices⟩, w) ↔ ∃ say, op = .say say ∧
          f.justEntered = false ∧ w.narrative.isOpen = false ∧
          (f.perform (World.stage load) now op voices w).state.narrative.text ≠
            w.narrative.text := by
        constructor
        · rintro ⟨f', below', say, hsettle', hop', hrest⟩
          obtain ⟨rfl, -⟩ := List.cons.inj (hsettle.symm.trans hsettle')
          obtain rfl := Option.some.inj (hop.symm.trans hop')
          exact ⟨say, rfl, hrest⟩
        · rintro ⟨say, rfl, hrest⟩
          exact ⟨f, below, say, hsettle, hop, hrest⟩
      have hleft : (Tracker.turn (World.stage load) now ⟨fs, voices⟩ w).left.2.HidesNothing = _ :=
        hleaves.value_eq fun _ _ => rfl
      show (Tracker.turn (World.stage load) now ⟨fs, voices⟩ w).left.2.HidesNothing ↔ _
      rw [hunseen, hleft]
      exact hidesNothing_perform_iff f now op voices h

end

/-! ## Sessions -/

/-- What is done apart from the turns of a tick changes nothing of the dialog. -/
theorem Aside.dialog_eq {c c' : Tracker × World} (h : Aside c c') :
    c'.2.narrative = c.2.narrative ∧ c'.2.transcript = c.2.transcript := by
  cases h with
  | calls _ _ hworld =>
      obtain ⟨_, _, _, _, _, rfl⟩ := hworld
      exact ⟨rfl, rfl⟩
  | stirs hworld =>
      obtain ⟨_, _, _, _, _, rfl⟩ := hworld
      exact ⟨rfl, rfl⟩

theorem Asides.dialog_eq {c c' : Tracker × World} (h : Asides c c') :
    c'.2.narrative = c.2.narrative ∧ c'.2.transcript = c.2.transcript := by
  refine h.invariant (I := fun d => d.2.narrative = c.2.narrative ∧
    d.2.transcript = c.2.transcript) ?_ ⟨rfl, rfl⟩
  rintro d d' haside ⟨hnarrative, htranscript⟩
  exact ⟨haside.dialog_eq.1.trans hnarrative, haside.dialog_eq.2.trans htranscript⟩

namespace World.HidesNothing

theorem of_narrative {w w' : World} (h : w.HidesNothing) (heq : w'.narrative = w.narrative) :
    w'.HidesNothing := by
  rw [HidesNothing, heq]
  exact h

/-- A scene begins with an empty box. -/
theorem ofScene (scene : Scene) : (World.ofScene scene).HidesNothing := by
  obtain ⟨journal, player, hentered⟩ := exists_enter_eq scene none blank
  rw [World.ofScene, hentered]
  exact fun _ => rfl

end World.HidesNothing

namespace Session

section

variable [Interpreter] {sources : Sources} {s : Session} {t : Tracker} {w : World}

/-- The dialog after a frame is that after its tick, with the box closed if it was open and nothing
was left to run. -/
theorem dialog_frame {status : TickStatus} (h : Returns sources s (status, t, w)) :
    let closed := if status = .idle ∧ w.narrative.isOpen then w.closeBox else w
    (frame sources s).world.narrative = closed.narrative ∧
      (frame sources s).world.transcript = closed.transcript := by
  intro closed
  rw [frame_eq h]
  obtain ⟨hnarrative, htranscript⟩ := (asides_rest sources
    (closeIdleBox status { beginFrame sources s with tracker := t, world := w })).dialog_eq
  have hclosed : (closeIdleBox status
      { beginFrame sources s with tracker := t, world := w }).world = closed := by
    unfold closeIdleBox closed
    dsimp only
    split <;> rfl
  rw [← hclosed]
  exact ⟨hnarrative, htranscript⟩

/-- After an idle frame no text is left, and what was in the box is a page, if a closed box held
none; and if it held some, that is left. -/
theorem dialog_frame_of_idle (h : Returns sources s (.idle, t, w)) :
    let w' := (frame sources s).world
    (w.HidesNothing → w'.narrative.text = "" ∧ w'.transcript = w.flushDialog.transcript) ∧
      (¬w.HidesNothing → w'.narrative.text ≠ "" ∧ w'.transcript = w.transcript) := by
  obtain ⟨hnarrative, htranscript⟩ := dialog_frame h
  cases hopen : w.narrative.isOpen with
  | true =>
      rw [if_pos ⟨rfl, hopen⟩] at hnarrative htranscript
      refine ⟨fun _ => ⟨congrArg Narrative.text hnarrative, htranscript⟩, fun hhides => ?_⟩
      exact absurd (fun hclosed => absurd (hopen.symm.trans hclosed) (by simp)) hhides
  | false =>
      rw [if_neg (by simp [hopen])] at hnarrative htranscript
      refine ⟨fun hhides => ?_, fun hhides => ⟨fun htext => hhides fun _ => ?_, htranscript⟩⟩
      · have htext : w.narrative.text = "" := hhides hopen
        refine ⟨(congrArg Narrative.text hnarrative).trans htext, ?_⟩
        rw [htranscript, World.flushDialog, if_pos htext]
      · exact (congrArg Narrative.text hnarrative).symm.trans htext

/-- In a session in which nothing is typed unseen a closed box holds no text. -/
theorem ReachedWith.hidesNothing
    (hs : ReachedWith sources (fun now c => ¬TypesUnseen sources.scene now c) s) :
    s.world.HidesNothing :=
  hs.invariant (I := fun c => c.2.HidesNothing) .ofScene
    (fun _ _ haside h => h.of_narrative haside.dialog_eq.1)
    (fun now _ hseen h => (hidesNothing_turn_iff now h).2 hseen) (fun _ h => h)
    fun _ _ _ _ _ => rfl

/-- If a closed box holds no text, this stays so in a turn unless it types unseen. After a frame at
whose end nothing is left to run, there is text left exactly if a closed box held some after the
tick; otherwise what was in the box is a page. So if nothing is typed unseen in a session, then
after every such frame no text is left. -/
theorem recorded_when_idle (sources : Sources) :
    (∀ (now : Nat) (c : Tracker × World), c.2.HidesNothing →
      ((Tracker.turn (stage sources) now c.1 c.2).left.2.HidesNothing ↔
        ¬TypesUnseen sources.scene now c)) ∧
    (∀ s t w, Returns sources s (.idle, t, w) →
      let w' := (frame sources s).world
      (w'.narrative.text = "" ↔ w.HidesNothing) ∧
        (w.HidesNothing → w'.transcript = w.flushDialog.transcript)) ∧
    ∀ s t w, ReachedWith sources (fun now c => ¬TypesUnseen sources.scene now c) s →
      Returns sources s (.idle, t, w) →
      (∀ c, Relation.ReflTransGen (Tracker.Goes (stage sources) (beginFrame sources s).now)
        (beginFrame sources s).moment c →
          ¬TypesUnseen sources.scene (beginFrame sources s).now c) →
      let w' := (frame sources s).world
      w'.narrative.text = "" ∧ w'.transcript = w.flushDialog.transcript := by
  refine ⟨fun now c h => hidesNothing_turn_iff now h, fun s t w hreturns => ?_,
    fun s t w hs hreturns hmoments => ?_⟩
  · obtain ⟨hempty, hleft⟩ := dialog_frame_of_idle hreturns
    refine ⟨⟨fun htext => ?_, fun h => (hempty h).1⟩, fun h => (hempty h).2⟩
    by_contra hhides
    exact (hleft hhides).1 htext
  · have hticked : w.HidesNothing :=
      hreturns.keeps_moment (I := fun c => c.2.HidesNothing)
        (fun _ _ haside h => h.of_narrative haside.dialog_eq.1)
        (fun now _ hseen h => (hidesNothing_turn_iff now h).2 hseen) hmoments hs.hidesNothing
    exact (dialog_frame_of_idle hreturns).1 hticked

end

/-- A text is typed out in two frames, and after the second it is a page. -/
theorem recorded_when_idle_typed :
    let sources := scenerySources [.say ⟨"Hi", none, 0, false⟩]
    ∃ s t w, ReachedWith sources (fun now c => ¬TypesUnseen sources.scene now c) s ∧
      s.world.narrative.text = "H" ∧ Returns sources s (.idle, t, w) ∧ w.HidesNothing ∧
      (let c := (beginFrame sources s).moment
      c.2.HidesNothing ∧
        (Tracker.turn (stage sources) (beginFrame sources s).now c.1 c.2).left.2.HidesNothing) ∧
      let w' := (frame sources s).world
      w'.narrative.text = "" ∧ w'.transcript = w.flushDialog.transcript ∧
        w.flushDialog.transcript = #["Hi"] := by
  intro sources
  have hplay : ∃ s₀ t₀ w₀ s t₁ w₁ t w, load sources .standard "scene.json" = ([], .ok s₀) ∧
      Tracker.turn (stage sources) (beginFrame sources s₀).now (beginFrame sources s₀).tracker
        (beginFrame sources s₀).world = .ended .suspended t₀ w₀ ∧
      w₀.narrative.isOpen = true ∧
      finishFrame sources .suspended
        { beginFrame sources s₀ with tracker := t₀, world := w₀ } = s ∧
      s.world.narrative.text = "H" ∧
      Tracker.turn (stage sources) (beginFrame sources s).now (beginFrame sources s).tracker
        (beginFrame sources s).world = .more t₁ w₁ ∧
      w₁.narrative.isOpen = true ∧
      Tracker.turn (stage sources) (beginFrame sources s).now t₁ w₁ = .ended .idle t w ∧
      w.narrative.isOpen = true ∧ w.flushDialog.transcript = #["Hi"] :=
    ⟨_, _, _, _, _, _, _, _, rfl, rfl, rfl, rfl, rfl, rfl, rfl, rfl, rfl, rfl⟩
  obtain ⟨s₀, t₀, w₀, s, t₁, w₁, t, w, hload, hturn₀, hopen₀, hframe, htext, hgo, hopen₁, hturn,
    hopen, hpages⟩ := hplay
  have hreturns₀ : Returns sources s₀ (.suspended, t₀, w₀) := .ended hturn₀
  have hreturns : Returns sources s (.idle, t, w) := .more hgo (.ended hturn)
  have hseen₀ : ∀ c, Relation.ReflTransGen
      (Tracker.Goes (stage sources) (beginFrame sources s₀).now) (beginFrame sources s₀).moment c →
        ¬TypesUnseen sources.scene (beginFrame sources s₀).now c := by
    intro c hpath
    rw [Tracker.eq_of_path_of_ended hturn₀ hpath]
    exact not_typesUnseen_of_isOpen ((congrArg (·.left.2.narrative.isOpen) hturn₀).trans hopen₀)
  have hseen : ∀ c, Relation.ReflTransGen
      (Tracker.Goes (stage sources) (beginFrame sources s).now) (beginFrame sources s).moment c →
        ¬TypesUnseen sources.scene (beginFrame sources s).now c := by
    intro c hpath
    rcases Tracker.eq_or_path_of_more hgo hpath with rfl | hrest
    · exact not_typesUnseen_of_isOpen ((congrArg (·.left.2.narrative.isOpen) hgo).trans hopen₁)
    · rw [Tracker.eq_of_path_of_ended hturn hrest]
      exact not_typesUnseen_of_isOpen ((congrArg (·.left.2.narrative.isOpen) hturn).trans hopen)
  have hs : ReachedWith sources (fun now c => ¬TypesUnseen sources.scene now c) s := by
    rw [← hframe, ← frame_eq hreturns₀]
    exact .frame (.loaded hload) hreturns₀ hseen₀
  have hbefore : (beginFrame sources s).moment.2.HidesNothing :=
    hs.hidesNothing.of_narrative (asides_beginFrame sources s).dialog_eq.1
  obtain ⟨hturns, hframes, hplayed⟩ := recorded_when_idle sources
  obtain ⟨hempty, hrecorded⟩ := hplayed s t w hs hreturns hseen
  exact ⟨s, t, w, hs, htext, hreturns, (hframes s t w hreturns).1.1 hempty,
    ⟨hbefore, (hturns _ _ hbefore).2 (hseen _ .refl)⟩, hempty, hrecorded, hpages⟩

/-! ## A text that is hushed -/

/-- Scripts without threads do nothing in a tick. -/
theorem runScripts_of_no_threads (sources : Sources) {s : Session} {scripts : SceneScripts}
    (hscripts : s.scripts = some scripts) (hthreads : scripts.scheduler.threads = [])
    (hentry : scripts.entry = none) : runScripts sources s = s := by
  have hticked : scripts.tick (sources.clock s.frames) s.reach = (scripts, s.reach) := by
    rw [SceneScripts.tick, Scheduler.tick_of_no_threads _ hthreads, hentry]
    show ((⟨scripts.memory, scripts.scheduler, none⟩, s.reach) : SceneScripts × Reach) = _
    rw [← hentry]
  rw [runScripts, hscripts]
  dsimp only
  rw [hticked, ← hscripts]
  rfl

/-- A scene that begins with a text, one character in a frame, while its script calls an event that
hides the box. -/
def hushingSources : Sources where
  scene _ := ([], .ok { scenery [] with
    events := [(Event.startName, [.say ⟨"Hi", none, 0, false⟩]), ("hush", [.hideBox])]
    script := some "scene.script" })
  script _ := .ok (some ⟨[], [.call "call_event" [.text "hush".toUTF8]]⟩)

/-- The box is hidden after the first character. The second one is typed behind it, and when nothing
is left to run, it is still there and no page. -/
theorem typed_behind_hush :
    ∃ s t w, Reached hushingSources s ∧ Returns hushingSources s (.idle, t, w) ∧
      let w' := (frame hushingSources s).world
      w'.narrative.isOpen = false ∧ w'.narrative.text = "i" ∧ w'.transcript = #["H"] := by
  have hplay : ∃ s₀ t₀ w₀ scripts s t w, load hushingSources .standard "scene.json" = ([], .ok s₀) ∧
      Returns hushingSources s₀ (.suspended, t₀, w₀) ∧
      (let arrived := followScene hushingSources (closeIdleBox .suspended
        { beginFrame hushingSources s₀ with tracker := t₀, world := w₀ })
      arrived.scripts = some scripts ∧ scripts.scheduler.threads = [] ∧ scripts.entry = none ∧
        endFrame (answerCalls hushingSources arrived) = s) ∧
      Returns hushingSources s (.idle, t, w) ∧ w.narrative.isOpen = false ∧
      w.narrative.text = "i" ∧ w.transcript = #["H"] :=
    ⟨_, _, _, _, _, _, _, rfl, .ended rfl, ⟨rfl, rfl, rfl, rfl⟩,
      .more rfl (.more rfl (.ended rfl)), rfl, rfl, rfl⟩
  obtain ⟨s₀, t₀, w₀, scripts, s, t, w, hload, hreturns₀, ⟨hscripts, hthreads, hentry, hs⟩,
    hreturns, hclosed, htext, hpages⟩ := hplay
  have hreached : Reached hushingSources s := by
    have hframe := frame_eq hreturns₀
    rw [finishFrame, runScripts_of_no_threads _ hscripts hthreads hentry, hs] at hframe
    rw [← hframe]
    exact .frame (.loaded hload) hreturns₀ fun _ _ => trivial
  obtain ⟨hnarrative, htranscript⟩ := dialog_frame hreturns
  rw [if_neg (by simp [hclosed])] at hnarrative htranscript
  exact ⟨s, t, w, hreached, hreturns, (congrArg Narrative.isOpen hnarrative).trans hclosed,
    (congrArg Narrative.text hnarrative).trans htext, htranscript.trans hpages⟩

end Session

end Cutscene
