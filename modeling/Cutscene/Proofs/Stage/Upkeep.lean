import Cutscene.Event.Library
import Cutscene.Tracker

/-!
# What operations keep

Operations reach a stage only through what the stage offers. So a property of its states that every
single request keeps is kept by every execution: `Stage.Keeps.execute`. A change of scene replaces
most of a stage and is left out; `Operation.loadsScene` tells the operation that makes it.

`Stage.Serves` is the property that matters most to calls: whatever is asked of the stage, names
stand for the events of one library.
-/

namespace Cutscene

/-- Whether an operation changes the scene. -/
def Operation.loadsScene : Operation → Bool
  | sceneLoad .. => true
  | _ => false

variable {σ : Type} {stage : Stage σ} {P : σ → Prop}

/-- Every request to the stage but a change of scene keeps a property of its states. -/
structure Stage.Keeps (stage : Stage σ) (P : σ → Prop) : Prop where
  note : ∀ l s, P s → P (stage.note l s)
  setFlag : ∀ name s, P s → P (stage.setFlag name s)
  unsetFlag : ∀ name s, P s → P (stage.unsetFlag name s)
  consume : ∀ c s, P s → P (stage.consume c s).2
  openBox : ∀ s, P s → P (stage.openBox s)
  closeBox : ∀ s, P s → P (stage.closeBox s)
  setText : ∀ text s, P s → P (stage.setText text s)
  appendText : ∀ text s, P s → P (stage.appendText text s)
  setOverlay : ∀ c s, P s → P (stage.setOverlay c s)
  lockMovement : ∀ locked s, P s → P (stage.lockMovement locked s)
  showCursor : ∀ visible s, P s → P (stage.showCursor visible s)
  showOptions : ∀ first second highlighted s, P s → P (stage.showOptions first second highlighted s)
  hideOptions : ∀ s, P s → P (stage.hideOptions s)
  showExpression : ∀ expression s, P s → P (stage.showExpression expression s)
  dialogClick : ∀ s, P s → P (stage.dialogClick s)
  playMusic : ∀ path looped s, P s → P (stage.playMusic path looped s)
  stopMusic : ∀ s, P s → P (stage.stopMusic s)
  pauseMusic : ∀ s, P s → P (stage.pauseMusic s)
  resumeMusic : ∀ s, P s → P (stage.resumeMusic s)
  entityCue : ∀ entity cue s, P s → P (stage.entityCue entity cue s)
  setTile : ∀ layer place atlas rotation s, P s → P (stage.setTile layer place atlas rotation s)

namespace Stage.Keeps

/-- If every request keeps the value of a function, every request keeps whatever depends on that
value only. -/
theorem of_value {α : Type} {value : σ → α} (h : ∀ a, stage.Keeps (value · = a))
    (hP : ∀ s s', value s' = value s → P s → P s') : stage.Keeps P where
  note l s hs := hP s _ ((h (value s)).note l s rfl) hs
  setFlag name s hs := hP s _ ((h (value s)).setFlag name s rfl) hs
  unsetFlag name s hs := hP s _ ((h (value s)).unsetFlag name s rfl) hs
  consume c s hs := hP s _ ((h (value s)).consume c s rfl) hs
  openBox s hs := hP s _ ((h (value s)).openBox s rfl) hs
  closeBox s hs := hP s _ ((h (value s)).closeBox s rfl) hs
  setText text s hs := hP s _ ((h (value s)).setText text s rfl) hs
  appendText text s hs := hP s _ ((h (value s)).appendText text s rfl) hs
  setOverlay c s hs := hP s _ ((h (value s)).setOverlay c s rfl) hs
  lockMovement locked s hs := hP s _ ((h (value s)).lockMovement locked s rfl) hs
  showCursor visible s hs := hP s _ ((h (value s)).showCursor visible s rfl) hs
  showOptions first second highlighted s hs :=
    hP s _ ((h (value s)).showOptions first second highlighted s rfl) hs
  hideOptions s hs := hP s _ ((h (value s)).hideOptions s rfl) hs
  showExpression expression s hs := hP s _ ((h (value s)).showExpression expression s rfl) hs
  dialogClick s hs := hP s _ ((h (value s)).dialogClick s rfl) hs
  playMusic path looped s hs := hP s _ ((h (value s)).playMusic path looped s rfl) hs
  stopMusic s hs := hP s _ ((h (value s)).stopMusic s rfl) hs
  pauseMusic s hs := hP s _ ((h (value s)).pauseMusic s rfl) hs
  resumeMusic s hs := hP s _ ((h (value s)).resumeMusic s rfl) hs
  entityCue entity cue s hs := hP s _ ((h (value s)).entityCue entity cue s rfl) hs
  setTile layer place atlas rotation s hs :=
    hP s _ ((h (value s)).setTile layer place atlas rotation s rfl) hs

theorem say (h : stage.Keeps P) (level : Level) (text : String) {s : σ} (hs : P s) :
    P (stage.say level text s) :=
  h.note _ s hs

/-! ## Texts -/

theorem cueSpeaker (h : stage.Keeps P) (voices : Voices) (cue : Cue) {s : σ} (hs : P s) :
    P (cueSpeaker stage voices cue s) := by
  unfold Cutscene.cueSpeaker
  split
  · exact h.entityCue _ _ s hs
  · exact hs

theorem beginSay (h : stage.Keeps P) (say : Say) (voices : Voices) {s : σ} (hs : P s) :
    P (beginSay stage say voices s) := by
  have hface : P (if say.expression.isSome then stage.showExpression say.expression s else s) := by
    split
    · exact h.showExpression _ s hs
    · exact hs
  have hbox : ∀ s, P s → P (if stage.isBoxOpen s then s else stage.openBox s) := by
    intro s hs
    split
    · exact hs
    · exact h.openBox s hs
  have hpage : ∀ s, P s → P (if say.append then s else stage.setText "" s) := by
    intro s hs
    split
    · exact hs
    · exact h.setText _ s hs
  unfold Cutscene.beginSay
  cases voices.speaker with
  | none => exact hpage _ (hbox _ hs)
  | some speaker => exact hpage _ (hbox _ (h.entityCue _ _ _ hface))

theorem sayAtOnce (h : stage.Keeps P) (say : Say) (voices : Voices) {s : σ} (hs : P s) :
    P (sayAtOnce stage say voices s) := by
  unfold Cutscene.sayAtOnce
  refine h.cueSpeaker voices _ ?_
  split
  · exact h.appendText _ _ (h.dialogClick s hs)
  · exact h.setText _ _ (h.dialogClick s hs)

theorem typeOut (h : stage.Keeps P) (say : Say) (voices : Voices) (now offset revealed : Nat)
    (last : Option Nat) {s : σ} (hs : P s) :
    P (typeOut stage say voices now offset revealed last s).2 := by
  have hclick : P (if revealed % dialogClickInterval = 0 then stage.dialogClick s else s) := by
    split
    · exact h.dialogClick s hs
    · exact hs
  have hend : ∀ (done : Prop) [Decidable done] (p : Progress) (s : σ), P s →
      P (if done then (Flow.next, endSpeech stage voices s) else (Flow.suspend p, s)).2 := by
    intro done _ p s hs
    split
    · exact h.cueSpeaker voices _ hs
    · exact hs
  unfold Cutscene.typeOut
  dsimp only
  split
  · exact hend _ _ _ (h.appendText _ _ hclick)
  · exact hend _ _ _ hs

theorem sayStep (h : stage.Keeps P) (say : Say) (voices : Voices) (now : Nat) (entering : Bool)
    (progress : Progress) {s : σ} (hs : P s) :
    P (sayStep stage say voices now entering progress s).2 := by
  have hbegun : P (if entering then Cutscene.beginSay stage say voices s else s) := by
    split
    · exact h.beginSay say voices hs
    · exact hs
  unfold Cutscene.sayStep
  extract_lets s
  split
  · exact h.sayAtOnce say voices hbegun
  · split
    · exact h.typeOut say voices _ _ _ _ hbegun
    · exact h.typeOut say voices _ _ _ _ hbegun

/-! ## Waiting and choosing -/

theorem of_consume_eq (h : stage.Keeps P) {c : Control} {pressed : Bool} {s s' : σ} (hs : P s)
    (heq : stage.consume c s = (pressed, s')) : P s' := by
  have := h.consume c s hs
  rwa [heq] at this

theorem keyStep (h : stage.Keeps P) (entering : Bool) {s : σ} (hs : P s) :
    P (keyStep stage entering s).2 := by
  unfold Cutscene.keyStep
  extract_lets s'
  have hs' : P s' := by
    unfold s'
    split
    · exact h.showCursor _ s hs
    · exact hs
  rcases hc : stage.consume .activate s' with ⟨pressed, s₁⟩
  have hs₁ : P s₁ := h.of_consume_eq hs' hc
  cases pressed with
  | true => exact h.showCursor _ _ hs₁
  | false => exact hs₁

theorem callNamed (h : stage.Keeps P) (name : String) {s : σ} (hs : P s) :
    P (callNamed stage name s).2 := by
  unfold Cutscene.callNamed
  split
  · exact hs
  · exact h.say _ _ hs

theorem navigate (h : stage.Keeps P) (first second : Choice) (c : Control) (choice : Bool)
    {r : Bool × σ} (hr : P r.2) : P (navigate stage first second c choice r).2 := by
  unfold Cutscene.navigate
  rcases hc : stage.consume c r.2 with ⟨pressed, s⟩
  have hs : P s := h.of_consume_eq hr hc
  cases pressed with
  | true => exact h.showOptions _ _ _ s hs
  | false => exact hs

theorem selectionStep (h : stage.Keeps P) (first second : Choice) (entering : Bool)
    (progress : Progress) {s : σ} (hs : P s) :
    P (selectionStep stage first second entering progress s).2 := by
  unfold Cutscene.selectionStep
  extract_lets highlighted s' r₁ r₂
  have hs' : P s' := by
    unfold s'
    split
    · exact h.showOptions _ _ _ s hs
    · exact hs
  have hr : P r₂.2 := h.navigate first second _ _ (h.navigate first second _ _ hs')
  rcases hc : stage.consume .activate r₂.2 with ⟨chosen, s₁⟩
  have hs₁ : P s₁ := h.of_consume_eq hr hc
  cases chosen with
  | true => exact h.callNamed _ (h.hideOptions _ hs₁)
  | false => exact hs₁

theorem flagIfStep (h : stage.Keeps P) (event : Event) (position : Nat) (flag : String)
    (target : Option String) (inlined : Option (List Operation)) {s : σ} (hs : P s) :
    P (flagIfStep stage event position flag target inlined s).2 := by
  unfold Cutscene.flagIfStep
  split
  · split
    · exact hs
    · exact h.callNamed _ hs
    · exact h.say _ _ hs
  · exact hs

/-! ## Entities, music, tiles and fades -/

theorem entityStep (h : stage.Keeps P) (cue : Cue) (voices : Voices) {s : σ} (hs : P s) :
    P (entityStep stage cue voices s).2 := by
  unfold Cutscene.entityStep
  grind [h.showExpression, h.entityCue, h.say]

theorem musicStep (h : stage.Keeps P) (action : MusicAction) (voices : Voices) {s : σ} (hs : P s) :
    P (musicStep stage action voices s).2 := by
  unfold Cutscene.musicStep
  grind [h.playMusic, h.stopMusic, h.pauseMusic, h.resumeMusic]

theorem tileStep (h : stage.Keeps P) (t : TileFill) {s : σ} (hs : P s) :
    P (tileStep stage t s) := by
  unfold Cutscene.tileStep
  induction t.cells generalizing s with
  | nil => exact hs
  | cons cell cells ih =>
      rw [List.foldl_cons]
      exact ih (h.setTile _ _ _ _ s hs)

theorem fadeStep (h : stage.Keeps P) (out : Bool) (duration now : Nat) (entering : Bool)
    (progress : Progress) {s : σ} (hs : P s) :
    P (fadeStep stage out duration now entering progress s).2 := by
  unfold Cutscene.fadeStep
  grind [h.lockMovement, h.setOverlay]

/-! ## One execution -/

/-- What every request keeps, every execution keeps that does not change the scene. -/
theorem execute (h : stage.Keeps P) (event : Event) (position : Nat) {op : Operation} (now : Nat)
    (entering : Bool) (progress : Progress) (voices : Voices) {s : σ}
    (hop : op.loadsScene = false) (hs : P s) :
    P (execute stage event position op now entering progress voices s).state := by
  cases op with
  | say say =>
      rw [Cutscene.execute, Effect.state_plain]
      exact h.sayStep say voices now entering progress hs
  | wait duration => exact hs
  | waitForKey =>
      rw [Cutscene.execute, Effect.state_plain]
      exact h.keyStep entering hs
  | hideBox => exact h.closeBox s hs
  | selection first second =>
      rw [Cutscene.execute, Effect.state_plain]
      exact h.selectionStep first second entering progress hs
  | entity cue => exact h.entityStep cue voices hs
  | flagSet flag => exact h.setFlag flag s hs
  | flagUnset flag => exact h.unsetFlag flag s hs
  | flagIf flag target inlined =>
      rw [Cutscene.execute, Effect.state_plain]
      exact h.flagIfStep event position flag target inlined hs
  | flagExitIf flag => exact hs
  | flagOnce flag =>
      rw [Cutscene.execute, Effect.state_plain]
      split
      · exact hs
      · exact h.setFlag flag s hs
  | music action => exact h.musicStep action voices hs
  | sceneLoad path door => exact absurd hop (by simp [Operation.loadsScene])
  | tileReplace t => exact h.tileStep t hs
  | fadeIn duration =>
      rw [Cutscene.execute, Effect.state_plain]
      exact h.fadeStep false _ now entering progress hs
  | fadeOut duration =>
      rw [Cutscene.execute, Effect.state_plain]
      exact h.fadeStep true _ now entering progress hs
  | unsupported opcode => exact h.say _ _ hs

end Stage.Keeps

/-- Every request to the stage but a change of scene keeps a property, under which names stand for
the events of a library. -/
structure Stage.Serves (stage : Stage σ) (lib : Library) (P : σ → Prop) : Prop
    extends stage.Keeps P where
  find : ∀ s, P s → ∀ name, stage.findEvent name s = lib.find? name

end Cutscene
