import Cutscene.Proofs.Session.Gates
import Cutscene.Proofs.Session.SceneChanges
import Cutscene.Proofs.Tracker.Tallies
import Cutscene.Script.Interpreter

/-!
# Presses

A press is for one effect. Whoever asks for it takes it: a button trigger that fires at the beginning
of a frame, and in the tick a wait for the key or a selection. Nothing presses a control during a
frame, so what is taken and what is left together stay what was pressed (`takes_add_pressed`). So
no press is taken twice, however many operations of a tick ask for it, and at the end of the frame
those that nobody has taken are forgotten (`one_press_one_effect`).
-/

namespace Cutscene

/-- Whether an operation asks the player for a press of activate. -/
def Operation.isAsking (op : Operation) : Bool := op.isKeyWait || op.isSelection

namespace Tracker

variable {σ : Type} (stage : Stage σ) (now : Nat)

/-- How often a press of a control is taken in the next turn. -/
def takes (control : Control) (c : Tracker × σ) : Nat := (asked stage now c).count (.consume control)

/-- How many operations the next turn answers that ask for a press of activate: whether it completes
a wait for the key or resolves a selection. -/
def answers (c : Tracker × σ) : Nat :=
  match settle c.1.frames with
  | [] => 0
  | f :: _ => match f.operation? with
    | none => 0
    | some op =>
      if op.isAsking && !(f.perform stage now op c.1.voices c.2).flow.suspends then 1 else 0

end Tracker

/-! ## Requests for presses -/

section

variable {σ : Type} {stage : Stage σ} {x x' : σ × List StageCall}

theorem mem_of_consume_recorded {c : Control} (h : stage.recorded.consume c x = (true, x')) :
    .consume c ∈ x'.2 := by
  obtain ⟨hpressed, rfl⟩ := Prod.mk.inj h
  rw [if_pos hpressed]
  exact List.mem_append_right _ (List.mem_singleton_self _)

/-- A wait for the key that is completed has taken the press. -/
theorem mem_keyStep_recorded {entering : Bool}
    (h : (keyStep stage.recorded entering x).1.suspends = false) :
    .consume .activate ∈ (keyStep stage.recorded entering x).2.2 := by
  revert h
  unfold keyStep
  extract_lets x₀
  rcases hconsume : stage.recorded.consume .activate x₀ with ⟨pressed, x₁⟩
  intro h
  cases pressed with
  | true => exact List.mem_append_left _ (mem_of_consume_recorded hconsume)
  | false => cases h

theorem snd_callNamed_recorded (name : String) (x : σ × List StageCall) :
    (callNamed stage.recorded name x).2.2 = x.2 := by
  unfold callNamed
  split <;> rfl

/-- A selection that is resolved has taken the press. -/
theorem mem_selectionStep_recorded {first second : Choice} {entering : Bool} {progress : Progress}
    (h : (selectionStep stage.recorded first second entering progress x).1.suspends = false) :
    .consume .activate ∈
      (selectionStep stage.recorded first second entering progress x).2.2 := by
  revert h
  unfold selectionStep
  extract_lets highlighted x₀ r₁ r₂
  rcases hconsume : stage.recorded.consume .activate r₂.2 with ⟨chosen, x₁⟩
  intro h
  cases chosen with
  | true =>
      have hmem : .consume .activate ∈ (stage.recorded.hideOptions x₁).2 :=
        List.mem_append_left _ (mem_of_consume_recorded hconsume)
      rw [← snd_callNamed_recorded] at hmem
      exact hmem
  | false => cases h

end

/-! ## What is taken and what is left -/

namespace World

/-- How many presses of a control are left: one or none. -/
def presses (control : Control) (w : World) : Nat := (w.input.has control).toNat

theorem input_flushDialog (w : World) : w.flushDialog.input = w.input := by
  unfold flushDialog
  split <;> rfl

theorem input_showOptions (first second : String) (highlighted : Nat) (w : World) :
    (w.showOptions first second highlighted).input = w.input := by
  unfold showOptions
  split <;> rfl

theorem input_hideOptions (w : World) : w.hideOptions.input = w.input := by
  unfold hideOptions
  split <;> rfl

theorem input_entityCue (name : String) (cue : Cue) (w : World) :
    (w.entityCue name cue).input = w.input := by
  unfold entityCue
  split
  · rfl
  · dsimp only
    split <;> rfl

theorem input_fireTrigger (kind : TriggerKind) (p : Point) (w : World) :
    (w.fireTrigger kind p).2.input = w.input := by
  obtain ⟨chronicle, lastTrigger, heq⟩ := exists_fireTrigger_eq kind p w
  rw [heq]

/-- How often a press has been taken and how often it is left. -/
def account (control : Control) (x : World × List StageCall) : Nat :=
  x.2.count (.consume control) + x.1.presses control

/-- A request that neither takes a press nor touches the input keeps the account. -/
theorem account_append {control : Control} {call : StageCall} {w w' : World}
    {calls : List StageCall} (hcall : ∀ c, call ≠ .consume c) (hinput : w'.input = w.input) :
    account control (w', calls ++ [call]) = account control (w, calls) := by
  rw [account, account, List.count_append, List.count_singleton, presses, hinput,
    if_neg (by simpa using hcall control), Nat.add_zero, presses]

/-- A press that is taken is not left. -/
theorem account_consume (load : String → Reported Scene) (control c : Control)
    (x : World × List StageCall) :
    account control ((stage load).recorded.consume c x).2 = account control x := by
  obtain ⟨w, calls⟩ := x
  have hleft : (w.consume c).2.presses control =
      if c = control then 0 else w.presses control := by
    show ((w.input.take c).has control).toNat = _
    rw [Presses.take, Presses.has_put]
    split <;> rfl
  show (if w.input.has c then calls ++ [.consume c] else calls).count (.consume control) +
    (w.consume c).2.presses control = _
  rw [hleft, account]
  by_cases hc : c = control
  · subst hc
    cases hpressed : w.input.has c with
    | true => simp [presses, hpressed]
    | false => simp [presses, hpressed]
  · cases hpressed : w.input.has c with
    | true => simp [List.count_append, hc]
    | false => simp [hc]

/-- Nothing that is asked of a world but a change of scene touches the account. -/
theorem recorded_keeps (load : String → Reported Scene) (control : Control) (n : Nat) :
    (stage load).recorded.Keeps (account control · = n) where
  note _ _ h := h
  setFlag _ _ h := (account_append (by simp) rfl).trans h
  unsetFlag _ _ h := (account_append (by simp) rfl).trans h
  consume c x h := (account_consume load control c x).trans h
  openBox _ h := (account_append (by simp) rfl).trans h
  closeBox x h := (account_append (by simp) x.1.input_flushDialog).trans h
  setText _ x h := (account_append (by simp) x.1.input_flushDialog).trans h
  appendText _ _ h := (account_append (by simp) rfl).trans h
  setOverlay _ _ h := (account_append (by simp) rfl).trans h
  lockMovement _ _ h := (account_append (by simp) rfl).trans h
  showCursor _ _ h := (account_append (by simp) rfl).trans h
  showOptions _ _ _ x h := (account_append (by simp) (x.1.input_showOptions _ _ _)).trans h
  hideOptions x h := (account_append (by simp) x.1.input_hideOptions).trans h
  showExpression _ _ h := (account_append (by simp) rfl).trans h
  dialogClick _ h := (account_append (by simp) rfl).trans h
  playMusic _ _ _ h := (account_append (by simp) rfl).trans h
  stopMusic _ h := (account_append (by simp) rfl).trans h
  pauseMusic _ h := (account_append (by simp) rfl).trans h
  resumeMusic _ h := (account_append (by simp) rfl).trans h
  entityCue name cue x h := (account_append (by simp) (x.1.input_entityCue name cue)).trans h
  setTile _ _ _ _ _ h := (account_append (by simp) rfl).trans h

theorem snd_sceneLoadStep_recorded {σ : Type} (stage : Stage σ) (path : String)
    (door : Option String) (voices : Voices) (x : σ × List StageCall) :
    (sceneLoadStep stage.recorded path door voices x).state.2 = x.2 ++ [.loadScene path door] := by
  unfold sceneLoadStep
  dsimp only
  split <;> rfl

theorem input_sceneLoadStep (load : String → Reported Scene) (path : String) (door : Option String)
    (voices : Voices) (w : World) :
    (sceneLoadStep (stage load) path door voices w).state.input = w.input :=
  congrArg Lasting.input (lasting_sceneLoadStep load path door voices w)

/-- No execution takes a press that was not there, and none makes one. -/
theorem account_execute (load : String → Reported Scene) (control : Control) (event : Event)
    (position : Nat) (op : Operation) (now : Nat) (entering : Bool) (progress : Progress)
    (voices : Voices) (x : World × List StageCall) :
    account control
        (execute (stage load).recorded event position op now entering progress voices x).state =
      account control x := by
  cases hscene : op.loadsScene with
  | false =>
      exact (recorded_keeps load control (account control x)).execute event position now entering
        progress voices hscene rfl
  | true =>
      cases op with
      | sceneLoad path door =>
          have hleft : (sceneLoadStep (stage load).recorded path door voices x).state.1.input =
              x.1.input := by
            have hsame := (stage load).recorded_mirrors.sceneLoadStep path door voices x
            rw [← input_sceneLoadStep load path door voices x.1, ← hsame]
            rfl
          have hkept : account control ((sceneLoadStep (stage load).recorded path door voices
              x).state.1, x.2 ++ [.loadScene path door]) = account control x :=
            account_append (by simp) hleft
          rw [← snd_sceneLoadStep_recorded] at hkept
          exact hkept
      | _ => cases hscene

end World

/-! ## Turns -/

namespace Tracker

theorem account_turn (load : String → Reported Scene) (now : Nat) (control : Control)
    (c : Tracker × World × List StageCall) :
    World.account control (turn (World.stage load).recorded now c.1 c.2).left.2 =
      World.account control c.2 := by
  obtain ⟨⟨fs, voices⟩, x⟩ := c
  cases hsettle : settle fs with
  | nil => rw [left_turn_idle hsettle]
  | cons f below =>
      obtain ⟨op, -, -, hleaves⟩ :=
        exists_left (World.stage load).recorded now (t := ⟨fs, voices⟩) hsettle x
      rw [hleaves.value_eq (v := World.account control) fun _ _ => rfl]
      exact World.account_execute load control f.event f.cursor op now f.justEntered f.progress
        voices _

/-- What a turn takes of the presses is no longer left after it. -/
theorem takes_add_pressed (load : String → Reported Scene) (now : Nat) (control : Control)
    (c : Tracker × World) :
    takes (World.stage load) now control c +
        (turn (World.stage load) now c.1 c.2).left.2.presses control =
      c.2.presses control := by
  have hkept := account_turn load now control (c.1, c.2, [])
  rw [left_turn_recorded] at hkept
  exact hkept.trans (Nat.zero_add _)

/-- A turn that completes a wait for the key or resolves a selection takes a press for it. -/
theorem answers_le_takes {σ : Type} (stage : Stage σ) (now : Nat) (c : Tracker × σ) :
    answers stage now c ≤ takes stage now .activate c := by
  obtain ⟨⟨fs, voices⟩, s⟩ := c
  unfold answers
  cases hsettle : settle fs with
  | nil => exact Nat.zero_le _
  | cons f below =>
      obtain ⟨op, hop, -⟩ := exists_left stage.recorded now (t := ⟨fs, voices⟩) hsettle (s, [])
      have hasked : asked stage now (⟨fs, voices⟩, s) =
          (f.perform stage.recorded now op voices (s, [])).state.2 := asked_of_active hsettle hop
      have hflow : (f.perform stage.recorded now op voices (s, [])).flow =
          (f.perform stage now op voices s).flow :=
        congrArg Effect.flow (stage.recorded_mirrors.perform now f op voices (s, []))
      dsimp only
      rw [hop]
      dsimp only
      split
      · rename_i hanswers
        rw [Bool.and_eq_true, Bool.not_eq_true', ← hflow] at hanswers
        obtain ⟨hasking, hgoes⟩ := hanswers
        rw [takes, hasked]
        refine List.count_pos_iff.2 ?_
        cases op with
        | waitForKey => exact mem_keyStep_recorded hgoes
        | selection first second => exact mem_selectionStep_recorded hgoes
        | _ => cases hasking
      · exact Nat.zero_le _

end Tracker

/-! ## Frames -/

namespace Session

section

variable [Interpreter] (sources : Sources)

/-- Whether a button trigger fires at the beginning of the next frame. -/
def pushes (s : Session) : Bool := (Part.push.firing? (Part.push.before sources s)).isSome

/-- How often a press of a control is taken at the beginning of the next frame and in the first
turns of its tick. -/
def taken (s : Session) (control : Control) (turns : Nat) : Nat :=
  let b := beginFrame sources s
  (if control = .activate then (pushes sources s).toNat else 0) +
    Tracker.tally (stage sources) b.now (Tracker.takes (stage sources) b.now control) turns b.moment

/-- What a press of activate does at the beginning of the next frame and in the first turns of its
tick: how many button triggers fire, waits for the key are completed and selections resolved. -/
def effects (s : Session) (turns : Nat) : Nat :=
  let b := beginFrame sources s
  (pushes sources s).toNat +
    Tracker.tally (stage sources) b.now (Tracker.answers (stage sources) b.now) turns b.moment

theorem input_call (e : Event) (s : Session) : (s.call sources e).world.input = s.world.input := by
  obtain ⟨journal, heq⟩ := exists_call_eq sources e s
  rw [heq]
  rfl

/-- Walking takes no press. -/
theorem input_takeWalk (s : Session) : (s.takeWalk sources).world.input = s.world.input := by
  unfold takeWalk
  split
  · rename_i p _
    have hinput := World.input_fireTrigger .touch p { s.world with player := p }
    unfold walk
    split
    · rfl
    · split
      · rename_i hfires
        rw [hfires] at hinput
        exact (input_call sources _ _).trans hinput
      · rename_i hfires
        rw [hfires] at hinput
        exact hinput
  · rfl

/-- A button trigger that fires takes the press of activate. -/
theorem input_pushButton (s : Session) : (s.pushButton sources).world.input =
    if (Part.push.firing? s).isSome then s.world.input.take .activate else s.world.input := by
  rw [Part.firing?_push, pushButton]
  cases s.world.input.has .activate && !s.world.movementLocked with
  | false => rfl
  | true =>
      rw [if_pos rfl, if_pos rfl]
      obtain ⟨journal, ⟨hnone, heq⟩ | ⟨f, hf, heq⟩⟩ :=
        World.fireTrigger_cases .button s.world.player s.world
      · rw [heq, hnone]
        rfl
      · rw [heq, hf]
        refine (input_call sources _ _).trans ?_
        show (World.input (World.spend f _)).take .activate = s.world.input.take .activate
        unfold World.spend
        cases f.trigger.bindFlag with
        | none => rfl
        | some flag => rfl

theorem input_beginFrame (s : Session) : (beginFrame sources s).world.input =
    if pushes sources s then s.world.input.take .activate else s.world.input := by
  rw [beginFrame, input_pushButton, input_takeWalk]
  rfl

/-- A button trigger fires for a press only. -/
theorem pressed_of_pushes {s : Session} (h : pushes sources s = true) :
    s.world.input.has .activate = true := by
  rw [pushes, Part.firing?_push] at h
  split at h
  · rename_i hpressed
    rw [Bool.and_eq_true] at hpressed
    exact input_takeWalk sources s ▸ hpressed.1
  · cases h

/-- What the beginning of a frame takes of the presses is no longer left after it. -/
theorem pushes_add_pressed (s : Session) (control : Control) :
    (if control = .activate then (pushes sources s).toNat else 0) +
      (beginFrame sources s).world.presses control = s.world.presses control := by
  rw [World.presses, input_beginFrame, World.presses]
  cases hpushes : pushes sources s with
  | false => simp
  | true =>
      rw [if_pos rfl, Presses.take, Presses.has_put]
      by_cases hcontrol : control = .activate
      · rw [hcontrol, pressed_of_pushes sources hpushes]
        rfl
      · rw [if_neg hcontrol, if_neg (Ne.symm hcontrol), Nat.zero_add]

/-! ## What follows the events -/

theorem input_closeIdleBox (status : TickStatus) (s : Session) :
    (closeIdleBox status s).world.input = s.world.input := by
  unfold closeIdleBox
  split
  · exact s.world.input_flushDialog
  · rfl

/-- What follows the events of a frame takes no press, up to its end. -/
theorem input_rest (status : TickStatus) (s : Session) :
    ((((closeIdleBox status s).followScene sources).runScripts sources).answerCalls
      sources).world.input =
      s.world.input := by
  obtain ⟨tracker, scripts, chronicle, heq⟩ := exists_rest_eq sources (closeIdleBox status s)
  rw [heq]
  exact input_closeIdleBox status s

/-- In every frame of every session, however many turns its tick takes and across calls, cancelled
events and changes of scene, a press is taken at most once, and only if the control is pressed. For
one press of activate at most one button trigger fires, one wait for the key is completed or one
selection is resolved. What follows the events takes no press, and at the end of the frame none is
left. -/
theorem one_press_one_effect (s : Session) :
    (beginFrame sources s).world.input =
      (if pushes sources s then s.world.input.take .activate else s.world.input) ∧
    (∀ control turns, taken sources s control turns ≤ (s.world.input.has control).toNat) ∧
    (∀ turns, effects sources s turns ≤ (s.world.input.has .activate).toNat) ∧
    (∀ status s', ((((closeIdleBox status s').followScene sources).runScripts sources).answerCalls
      sources).world.input = s'.world.input) ∧
    ∀ control, (frame sources s).world.input.has control = false := by
  have htaken : ∀ control turns, taken sources s control turns ≤ s.world.presses control := by
    intro control turns
    have hbegun := pushes_add_pressed sources s control
    have hturns := Tracker.tally_le (fun c => c.2.presses control)
      (fun c => (Tracker.takes_add_pressed sources.scene (beginFrame sources s).now control c).le)
      turns (beginFrame sources s).moment
    unfold taken
    exact hbegun ▸ Nat.add_le_add_left hturns _
  refine ⟨input_beginFrame sources s, htaken, ?_, input_rest sources, fun control => ?_⟩
  · intro turns
    refine Nat.le_trans ?_ (htaken .activate turns)
    exact Nat.add_le_add_left (Tracker.tally_mono (Tracker.answers_le_takes _ _) turns _) _
  · cases control with
    | activate => rfl
    | selectNext => rfl
    | selectPrevious => rfl

end

/-- Of two waits for the key in a row, one press completes the first. -/
example : ∃ lines s, load (scenerySources [.waitForKey, .waitForKey]) .standard "scene.json" =
      (lines, .ok s) ∧
    effects (scenerySources [.waitForKey, .waitForKey]) (s.press .activate) 3 = 1 :=
  ⟨_, _, rfl, by decide +kernel⟩

end Session

end Cutscene
