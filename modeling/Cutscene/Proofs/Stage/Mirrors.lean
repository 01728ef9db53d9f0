import Cutscene.Proofs.Stage.Upkeep
import Cutscene.Proofs.Tracker.Turns

/-!
# Stages that mirror others

A stage can keep more than another one and otherwise do the same: there is a view of its states
under which every request is that of the other stage (`Stage.Mirrors`). Then every execution is the
same under the view (`Stage.Mirrors.execute`), and so is every turn (`Stage.Mirrors.turn`). What such
a stage writes down besides is thus written down about the turns of the other one.
-/

namespace Cutscene

/-- Every request is that of another stage, under a view of the states. -/
structure Stage.Mirrors {σ τ : Type} (mirror : Stage σ) (stage : Stage τ) (view : σ → τ) :
    Prop where
  note : ∀ l s, view (mirror.note l s) = stage.note l (view s)
  hasFlag : ∀ name s, mirror.hasFlag name s = stage.hasFlag name (view s)
  setFlag : ∀ name s, view (mirror.setFlag name s) = stage.setFlag name (view s)
  unsetFlag : ∀ name s, view (mirror.unsetFlag name s) = stage.unsetFlag name (view s)
  findEvent : ∀ name s, mirror.findEvent name s = stage.findEvent name (view s)
  consume : ∀ c s, stage.consume c (view s) = Prod.map id view (mirror.consume c s)
  isBoxOpen : ∀ s, mirror.isBoxOpen s = stage.isBoxOpen (view s)
  openBox : ∀ s, view (mirror.openBox s) = stage.openBox (view s)
  closeBox : ∀ s, view (mirror.closeBox s) = stage.closeBox (view s)
  setText : ∀ text s, view (mirror.setText text s) = stage.setText text (view s)
  appendText : ∀ text s, view (mirror.appendText text s) = stage.appendText text (view s)
  hasEntity : ∀ name s, mirror.hasEntity name s = stage.hasEntity name (view s)
  loadScene : ∀ path door s,
    stage.loadScene path door (view s) = Prod.map id view (mirror.loadScene path door s)
  overlay : ∀ s, mirror.overlay s = stage.overlay (view s)
  setOverlay : ∀ c s, view (mirror.setOverlay c s) = stage.setOverlay c (view s)
  lockMovement : ∀ locked s, view (mirror.lockMovement locked s) = stage.lockMovement locked (view s)
  showCursor : ∀ visible s, view (mirror.showCursor visible s) = stage.showCursor visible (view s)
  showOptions : ∀ first second highlighted s, view (mirror.showOptions first second highlighted s) =
    stage.showOptions first second highlighted (view s)
  hideOptions : ∀ s, view (mirror.hideOptions s) = stage.hideOptions (view s)
  showExpression : ∀ expression s,
    view (mirror.showExpression expression s) = stage.showExpression expression (view s)
  dialogClick : ∀ s, view (mirror.dialogClick s) = stage.dialogClick (view s)
  playMusic : ∀ path looped s,
    view (mirror.playMusic path looped s) = stage.playMusic path looped (view s)
  stopMusic : ∀ s, view (mirror.stopMusic s) = stage.stopMusic (view s)
  pauseMusic : ∀ s, view (mirror.pauseMusic s) = stage.pauseMusic (view s)
  resumeMusic : ∀ s, view (mirror.resumeMusic s) = stage.resumeMusic (view s)
  entityCue : ∀ entity cue s, view (mirror.entityCue entity cue s) =
    stage.entityCue entity cue (view s)
  setTile : ∀ layer place atlas rotation s, view (mirror.setTile layer place atlas rotation s) =
    stage.setTile layer place atlas rotation (view s)

/-- What one execution leaves, under a view of the states. -/
def Effect.map {σ τ : Type} (view : σ → τ) (r : Effect σ) : Effect τ :=
  ⟨r.flow, r.voices, r.queued, view r.state⟩

/-- What one turn leads to, under a view of the states. -/
def Tracker.Turn.map {σ τ : Type} (view : σ → τ) : Tracker.Turn σ → Tracker.Turn τ
  | .ended status t s => .ended status t (view s)
  | .more t s => .more t (view s)

namespace Stage.Mirrors

variable {σ τ : Type} {mirror : Stage σ} {stage : Stage τ} {view : σ → τ}

theorem say (h : mirror.Mirrors stage view) (level : Level) (text : String) (s : σ) :
    view (mirror.say level text s) = stage.say level text (view s) :=
  h.note _ s

/-! ## Texts -/

theorem cueSpeaker (h : mirror.Mirrors stage view) (voices : Voices) (cue : Cue) (s : σ) :
    view (cueSpeaker mirror voices cue s) = Cutscene.cueSpeaker stage voices cue (view s) := by
  unfold Cutscene.cueSpeaker
  cases voices.speaker with
  | none => rfl
  | some speaker => exact h.entityCue speaker cue s

theorem beginSay (h : mirror.Mirrors stage view) (say : Say) (voices : Voices) (s : σ) :
    view (beginSay mirror say voices s) = Cutscene.beginSay stage say voices (view s) := by
  unfold Cutscene.beginSay
  cases voices.speaker with
  | none => grind [h.isBoxOpen, h.openBox, h.setText]
  | some speaker => grind [h.showExpression, h.entityCue, h.isBoxOpen, h.openBox, h.setText]

theorem sayAtOnce (h : mirror.Mirrors stage view) (say : Say) (voices : Voices) (s : σ) :
    view (sayAtOnce mirror say voices s) = Cutscene.sayAtOnce stage say voices (view s) := by
  unfold Cutscene.sayAtOnce endSpeech
  grind [h.dialogClick, h.appendText, h.setText, h.cueSpeaker]

theorem typeOut (h : mirror.Mirrors stage view) (say : Say) (voices : Voices)
    (now offset revealed : Nat) (last : Option Nat) (s : σ) :
    Prod.map id view (typeOut mirror say voices now offset revealed last s) =
      Cutscene.typeOut stage say voices now offset revealed last (view s) := by
  unfold Cutscene.typeOut endSpeech
  grind [h.dialogClick, h.appendText, h.cueSpeaker]

theorem sayStep (h : mirror.Mirrors stage view) (say : Say) (voices : Voices) (now : Nat)
    (entering : Bool) (progress : Progress) (s : σ) :
    Prod.map id view (sayStep mirror say voices now entering progress s) =
      Cutscene.sayStep stage say voices now entering progress (view s) := by
  unfold Cutscene.sayStep
  grind [h.beginSay, h.sayAtOnce, h.typeOut]

/-! ## Waiting and choosing -/

theorem keyStep (h : mirror.Mirrors stage view) (entering : Bool) (s : σ) :
    Prod.map id view (keyStep mirror entering s) = Cutscene.keyStep stage entering (view s) := by
  unfold Cutscene.keyStep
  extract_lets s₀ s₀'
  have hasked : s₀' = view s₀ := by
    unfold s₀' s₀
    grind [h.showCursor]
  rw [hasked, h.consume]
  rcases mirror.consume .activate s₀ with ⟨pressed, s₁⟩
  cases pressed with
  | true => exact congrArg (Flow.next, ·) (h.showCursor false s₁)
  | false => rfl

theorem callNamed (h : mirror.Mirrors stage view) (name : String) (s : σ) :
    Prod.map id view (callNamed mirror name s) = Cutscene.callNamed stage name (view s) := by
  unfold Cutscene.callNamed
  rw [← h.findEvent]
  cases mirror.findEvent name s with
  | some e => rfl
  | none => exact congrArg (Flow.next, ·) (h.say .error _ s)

theorem navigate (h : mirror.Mirrors stage view) (first second : Choice) (c : Control)
    (choice : Bool) (r : Bool × σ) :
    Prod.map id view (navigate mirror first second c choice r) =
      Cutscene.navigate stage first second c choice (Prod.map id view r) := by
  unfold Cutscene.navigate
  rw [Prod.map_snd, h.consume]
  rcases mirror.consume c r.2 with ⟨pressed, s⟩
  cases pressed with
  | true => exact congrArg (choice, ·) (h.showOptions _ _ _ s)
  | false => rfl

theorem selectionStep (h : mirror.Mirrors stage view) (first second : Choice) (entering : Bool)
    (progress : Progress) (s : σ) :
    Prod.map id view (selectionStep mirror first second entering progress s) =
      Cutscene.selectionStep stage first second entering progress (view s) := by
  unfold Cutscene.selectionStep
  extract_lets highlighted s₀ r₁ r₂ s₀' r₁' r₂'
  have hoffered : s₀' = view s₀ := by
    unfold s₀' s₀
    grind [h.showOptions]
  have hmoved : r₂' = Prod.map id view r₂ := by
    unfold r₂' r₂ r₁' r₁
    rw [h.navigate, h.navigate, hoffered]
    rfl
  rw [hmoved, Prod.map_snd, h.consume]
  rcases mirror.consume .activate r₂.2 with ⟨chosen, s₁⟩
  cases chosen with
  | true =>
      show Prod.map id view (Cutscene.callNamed mirror _ (mirror.hideOptions s₁)) =
        Cutscene.callNamed stage _ (stage.hideOptions (view s₁))
      rw [h.callNamed, h.hideOptions]
      rfl
  | false => rfl

theorem flagIfStep (h : mirror.Mirrors stage view) (event : Event) (position : Nat) (flag : String)
    (target : Option String) (inlined : Option (List Operation)) (s : σ) :
    Prod.map id view (flagIfStep mirror event position flag target inlined s) =
      Cutscene.flagIfStep stage event position flag target inlined (view s) := by
  unfold Cutscene.flagIfStep
  rw [← h.hasFlag]
  split
  · split
    · rfl
    · exact h.callNamed _ s
    · exact congrArg (Flow.next, ·) (h.say .warn _ s)
  · rfl

/-! ## Entities, music, scenes, tiles and fades -/

theorem entityStep (h : mirror.Mirrors stage view) (cue : Cue) (voices : Voices) (s : σ) :
    Prod.map id view (entityStep mirror cue voices s) =
      Cutscene.entityStep stage cue voices (view s) := by
  unfold Cutscene.entityStep
  grind [h.hasEntity, h.showExpression, h.entityCue, h.say]

theorem musicStep (h : mirror.Mirrors stage view) (action : MusicAction) (voices : Voices) (s : σ) :
    Prod.map id view (musicStep mirror action voices s) =
      Cutscene.musicStep stage action voices (view s) := by
  unfold Cutscene.musicStep
  grind [h.playMusic, h.stopMusic, h.pauseMusic, h.resumeMusic]

theorem sceneLoadStep (h : mirror.Mirrors stage view) (path : String) (door : Option String)
    (voices : Voices) (s : σ) :
    (sceneLoadStep mirror path door voices s).map view =
      Cutscene.sceneLoadStep stage path door voices (view s) := by
  unfold Cutscene.sceneLoadStep
  extract_lets said said'
  rw [show said' = view said from (h.say .debug _ s).symm, h.loadScene]
  rcases mirror.loadScene path door said with ⟨start, s₁⟩
  cases start with
  | none => simp only [Prod.map_apply, id, Effect.map, h.hasEntity]
  | some e => simp only [Prod.map_apply, id, Effect.map, h.hasEntity, h.say]

theorem tileStep (h : mirror.Mirrors stage view) (t : TileFill) (s : σ) :
    view (tileStep mirror t s) = Cutscene.tileStep stage t (view s) := by
  unfold Cutscene.tileStep
  induction t.cells generalizing s with
  | nil => rfl
  | cons cell cells ih => rw [List.foldl_cons, ih, h.setTile, List.foldl_cons]

theorem fadeStep (h : mirror.Mirrors stage view) (out : Bool) (duration now : Nat)
    (entering : Bool) (progress : Progress) (s : σ) :
    Prod.map id view (fadeStep mirror out duration now entering progress s) =
      Cutscene.fadeStep stage out duration now entering progress (view s) := by
  unfold Cutscene.fadeStep
  grind [h.lockMovement, h.overlay, h.setOverlay]

/-! ## Executions and turns -/

/-- An execution does the same on both stages. -/
theorem execute (h : mirror.Mirrors stage view) (event : Event) (position : Nat) (op : Operation)
    (now : Nat) (entering : Bool) (progress : Progress) (voices : Voices) (s : σ) :
    (execute mirror event position op now entering progress voices s).map view =
      Cutscene.execute stage event position op now entering progress voices (view s) := by
  have hplain : ∀ (r : Flow × σ) (r' : Flow × τ), Prod.map id view r = r' →
      (Effect.plain voices r).map view = .plain voices r' := by
    rintro r r' rfl
    rfl
  have hremembered : ∀ (r : Voices × σ) (r' : Voices × τ), Prod.map id view r = r' →
      Effect.map view ⟨.next, r.1, none, r.2⟩ = ⟨.next, r'.1, none, r'.2⟩ := by
    rintro r r' rfl
    rfl
  cases op with
  | say say => exact hplain _ _ (h.sayStep say voices now entering progress s)
  | wait d => rfl
  | waitForKey => exact hplain _ _ (h.keyStep entering s)
  | hideBox => exact hplain _ _ (congrArg (Flow.next, ·) (h.closeBox s))
  | selection first second => exact hplain _ _ (h.selectionStep first second entering progress s)
  | entity cue => exact hremembered _ _ (h.entityStep cue voices s)
  | flagSet flag => exact hplain _ _ (congrArg (Flow.next, ·) (h.setFlag flag s))
  | flagUnset flag => exact hplain _ _ (congrArg (Flow.next, ·) (h.unsetFlag flag s))
  | flagIf flag target inlined =>
      exact hplain _ _ (h.flagIfStep event position flag target inlined s)
  | flagExitIf flag =>
      refine hplain _ _ ?_
      rw [← h.hasFlag]
      rfl
  | flagOnce flag =>
      refine hplain _ _ ?_
      rw [← h.hasFlag]
      split
      · rfl
      · exact congrArg (Flow.next, ·) (h.setFlag flag s)
  | music action => exact hremembered _ _ (h.musicStep action voices s)
  | sceneLoad path door => exact h.sceneLoadStep path door voices s
  | tileReplace t => exact hplain _ _ (congrArg (Flow.next, ·) (h.tileStep t s))
  | fadeIn d => exact hplain _ _ (h.fadeStep false _ now entering progress s)
  | fadeOut d => exact hplain _ _ (h.fadeStep true _ now entering progress s)
  | unsupported opcode => exact hplain _ _ (congrArg (Flow.next, ·) (h.say .error _ s))

/-- The present operation of a frame does the same on both stages. -/
theorem perform (h : mirror.Mirrors stage view) (now : Nat) (f : Frame) (op : Operation)
    (voices : Voices) (s : σ) :
    (f.perform mirror now op voices s).map view = f.perform stage now op voices (view s) := by
  rw [Frame.perform, h.execute, h.say]
  rfl

theorem follow (h : mirror.Mirrors stage view) (f : Frame) (below : List Frame) (r : Effect σ) :
    (Tracker.follow mirror f below r).map view = Tracker.follow stage f below (r.map view) := by
  cases hflow : r.flow with
  | next =>
      have hflow' : (r.map view).flow = .next := hflow
      rw [Tracker.follow_next hflow, Tracker.follow_next hflow']
      rfl
  | suspend p =>
      have hflow' : (r.map view).flow = .suspend p := hflow
      rw [Tracker.follow_suspend hflow, Tracker.follow_suspend hflow']
      rfl
  | call e =>
      have hflow' : (r.map view).flow = .call e := hflow
      cases hruns : Tracker.isRunning ⟨f.await :: Tracker.queuedBelow r below, r.voices⟩ e with
      | true =>
          rw [Tracker.follow_refused hflow hruns, Tracker.follow_refused hflow' hruns]
          exact congrArg (Tracker.Turn.more _) (h.say .error _ r.state)
      | false =>
          rw [Tracker.follow_call hflow hruns, Tracker.follow_call hflow' hruns]
          exact congrArg (Tracker.Turn.more _) (h.say .debug _ r.state)
  | cancel =>
      have hflow' : (r.map view).flow = .cancel := hflow
      rw [Tracker.follow_cancel hflow, Tracker.follow_cancel hflow']
      exact congrArg (Tracker.Turn.more _) (h.say .debug _ r.state)

/-- A turn does the same on both stages. -/
theorem turn (h : mirror.Mirrors stage view) (now : Nat) (t : Tracker) (s : σ) :
    (Tracker.turn mirror now t s).map view = Tracker.turn stage now t (view s) := by
  obtain ⟨fs, voices⟩ := t
  cases hsettle : Tracker.settle fs with
  | nil =>
      rw [Tracker.turn_idle hsettle, Tracker.turn_idle hsettle]
      rfl
  | cons f below =>
      obtain ⟨op, hop, hturn⟩ := Tracker.turn_active hsettle voices s
      obtain ⟨op', hop', hturn'⟩ := Tracker.turn_active hsettle voices (view s)
      obtain rfl : op = op' := Option.some.inj (hop.symm.trans hop')
      rw [hturn, hturn', h.follow, h.perform]

end Stage.Mirrors

end Cutscene
