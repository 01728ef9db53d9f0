import Cutscene.Proofs.Stage.Hosts
import Cutscene.Proofs.Tracker.Calls
import Cutscene.Proofs.Tracker.Waiting

/-!
# What a turn relies on

A turn executes an operation of the frame on top, and that can change the stack: a change of scene
puts a frame below all others. Then the turn goes back to the stack for the frame that it has
executed. It relies on finding one, and before that on the frame having an operation at all.

`checkedTurn` is a turn that relies on nothing: it looks at the stack each time that it needs the
frame on top, and where it does not find what it looks for it stops with a `Lapse`. It never does
(`checkedTurn_eq`). Settling leaves on top a frame with an operation (`settled`), and whatever the
operation does, the same frame is on top afterwards (`undergo_cons`). So there is nothing between
the two ways in which a tick can end: nothing is left, or the frame on top has suspended itself
(`tick_truthful`).
-/

namespace Cutscene

/-- What a turn can miss. -/
inductive Lapse where
  /-- The frame on top has no operation at its position. -/
  | noOperation
  /-- There is no frame to suspend. -/
  | noneToSuspend
  /-- There is no frame that goes on with its next operation. -/
  | noneToAdvance
  /-- There is no frame that waits for a called event. -/
  | noneToAwait
  /-- There is no frame that ends with its event. -/
  | noneToCancel
deriving DecidableEq, Repr

namespace Tracker

/-! ## A turn that looks at the stack -/

section

variable {σ : Type} (stage : Stage σ)

/-- Changes the frame on top. -/
def changeTop (lapse : Lapse) (change : Frame → Frame) (t : Tracker) : Except Lapse Tracker :=
  match t.frames with
  | [] => .error lapse
  | f :: below => .ok { t with frames := change f :: below }

/-- The tracker after an execution: who speaks and what plays, and an event that has been queued. -/
def undergo (r : Effect σ) (t : Tracker) : Tracker :=
  let t := { t with voices := r.voices }
  match r.queued with
  | some e => t.enqueue e
  | none => t

/-- Puts a frame for an event on top of the frame that calls it; tells whether it did. -/
def checkedCall (e : Event) (t : Tracker) (s : σ) : Except Lapse (Bool × Tracker × σ) :=
  if t.isRunning e then .ok (t.call stage e s)
  else do
    let t ← t.changeTop .noneToAwait fun f => { f with awaitingChild := true }
    return t.call stage e s

/-- What becomes of the stack when an operation has been executed. -/
def checkedFollow (flow : Flow) (t : Tracker) (s : σ) : Except Lapse (Turn σ) :=
  match flow with
  | .next => do
    let t ← t.changeTop .noneToAdvance Frame.advance
    return .more t s
  | .suspend p => do
    let t ← t.changeTop .noneToSuspend (·.suspend p)
    return .ended .suspended t s
  | .call e => do
    let (called, t, s) ← checkedCall stage e t s
    if called then return .more t s
    else
      let t ← t.changeTop .noneToAdvance Frame.advance
      return .more t s
  | .cancel =>
    match t.frames with
    | [] => .error .noneToCancel
    | _ :: _ =>
      let (t, s) := t.cancelCurrent stage s
      .ok (.more t s)

/-- A turn that looks at the stack each time that it needs the frame on top. -/
def checkedTurn (now : Nat) (t : Tracker) (s : σ) : Except Lapse (Turn σ) :=
  match settle t.frames with
  | [] => .ok (.ended .idle { t with frames := [] } s)
  | f :: below =>
    match f.operation? with
    | none => .error .noOperation
    | some op =>
      -- the operation is given the progress, and none is left in the frame
      let t : Tracker := ⟨{ f with progress := .fresh } :: below, t.voices⟩
      let r := f.perform stage now op t.voices s
      checkedFollow stage r.flow (t.undergo r) r.state

theorem nonempty_result (t : Tracker) (s : σ) : Nonempty (TickStatus × Tracker × σ) :=
  ⟨.idle, t, s⟩

/-- Takes checked turns until one ends the tick or stops. -/
def checkedTick (now : Nat) (t : Tracker) (s : σ) : Except Lapse (TickStatus × Tracker × σ) :=
  haveI : Nonempty (TickStatus × Tracker × σ) := nonempty_result t s
  repeatM (m := Except Lapse) (fun c => (checkedTurn stage now c.1 c.2).map Turn.next) (t, s)

end

/-! ## It never stops -/

section

variable {σ : Type} {stage : Stage σ} {now : Nat} {f : Frame} {below : List Frame} {op : Operation}
  {r : Effect σ}

/-- The frame on top stays where it is while its operation is executed. -/
theorem undergo_cons (r : Effect σ) (f : Frame) (below : List Frame) (voices : Voices) :
    undergo r ⟨f :: below, voices⟩ = ⟨f :: queuedBelow r below, r.voices⟩ := by
  rw [undergo, queuedBelow]
  cases r.queued with
  | none => rfl
  | some e => rfl

/-- With the executed frame still on top, nothing is missed. -/
theorem checkedFollow_eq (f : Frame) (below : List Frame) (r : Effect σ) :
    checkedFollow stage r.flow ⟨{ f with progress := .fresh } :: queuedBelow r below, r.voices⟩
      r.state = .ok (follow stage f below r) := by
  cases hflow : r.flow with
  | next =>
      rw [follow_next hflow]
      rfl
  | suspend p =>
      rw [follow_suspend hflow]
      rfl
  | call e =>
      -- whether the event is running does not hang on what the frame keeps
      have hsame : isRunning ⟨{ f with progress := .fresh } :: queuedBelow r below, r.voices⟩ e =
          isRunning ⟨f.await :: queuedBelow r below, r.voices⟩ e := rfl
      cases hruns : isRunning ⟨f.await :: queuedBelow r below, r.voices⟩ e with
      | true =>
          rw [follow_refused hflow hruns]
          simp only [checkedFollow, checkedCall, call, hsame, hruns, if_true]
          rfl
      | false =>
          rw [follow_call hflow hruns]
          have hmarked : isRunning ⟨{ f with awaitingChild := true, progress := .fresh } ::
              queuedBelow r below, r.voices⟩ e = false := hruns
          simp only [checkedFollow, checkedCall, changeTop, call, hsame, hruns, hmarked, bind,
            Except.bind, pure, Except.pure, Bool.false_eq_true, if_false, if_true]
          rfl
  | cancel =>
      rw [follow_cancel hflow]
      rfl

/-- A turn finds whatever it looks for, and is what it is without looking. -/
theorem checkedTurn_eq (t : Tracker) (s : σ) :
    checkedTurn stage now t s = .ok (turn stage now t s) := by
  cases hsettle : settle t.frames with
  | nil =>
      rw [show turn stage now t s = _ from turn_idle hsettle t.voices s]
      simp only [checkedTurn, hsettle]
  | cons f below =>
      obtain ⟨op, hop, hturn : turn stage now t s = _⟩ := turn_active hsettle t.voices s
      rw [hturn]
      simp only [checkedTurn, hsettle, hop, undergo_cons]
      exact checkedFollow_eq f below _

theorem checkedTick_eq (t : Tracker) (s : σ) : checkedTick stage now t s =
    match turn stage now t s with
    | .ended status t' s' => .ok (status, t', s')
    | .more t' s' => checkedTick stage now t' s' := by
  have hnonempty : Nonempty (TickStatus × Tracker × σ) := nonempty_result t s
  unfold checkedTick
  rw [repeatM_eq_of_monadTail]
  unfold repeatM.body
  simp only [checkedTurn_eq]
  cases turn stage now t s with
  | ended status t' s' => rfl
  | more t' s' => rfl

/-- A tick that ends never stops on its way. -/
theorem Runs.checkedTick_eq {t : Tracker} {s : σ} {r : TickStatus × Tracker × σ}
    (h : Runs stage now t s r) : checkedTick stage now t s = .ok r := by
  induction h with
  | ended hturn => rw [Tracker.checkedTick_eq, hturn]
  | more hturn _ ih =>
      rw [Tracker.checkedTick_eq, hturn]
      exact ih

/-! ## How a tick ends -/

/-- An operation that goes on in a later tick has queued nothing. -/
theorem queuedBelow_of_suspend {p : Progress} {voices : Voices} {s : σ}
    (hflow : (f.perform stage now op voices s).flow = .suspend p) (below : List Frame) :
    queuedBelow (f.perform stage now op voices s) below = below := by
  cases hscene : op.loadsScene with
  | false => exact queuedBelow_perform hscene below
  | true =>
      cases op with
      | sceneLoad path door => cases hflow
      | _ => cases hscene

/-- The operation of the frame on top suspends in a turn from `c`, which leaves that frame on top
and the others as they were. -/
def SuspendsIn (stage : Stage σ) (now : Nat) (c : Tracker × σ) (t' : Tracker) : Prop :=
  ∃ f below op p, settle c.1.frames = f :: below ∧ f.operation? = some op ∧
    (f.perform stage now op c.1.voices c.2).flow = .suspend p ∧ t'.frames = f.suspend p :: below

/-- A turn that ends the tick has nothing left, or its operation has suspended. -/
theorem ended_cases {t t' : Tracker} {s s' : σ} {status : TickStatus}
    (h : turn stage now t s = .ended status t' s') :
    (status = .idle ∧ t'.frames = []) ∨ (status = .suspended ∧ SuspendsIn stage now (t, s) t') := by
  cases hsettle : settle t.frames with
  | nil =>
      have hidle : turn stage now t s = .ended .idle ⟨[], t.voices⟩ s :=
        turn_idle hsettle t.voices s
      obtain ⟨rfl, rfl, -⟩ := Turn.ended.inj (h.symm.trans hidle)
      exact .inl ⟨rfl, rfl⟩
  | cons f below =>
      obtain ⟨op, hop, hturn : turn stage now t s = _⟩ := turn_active hsettle t.voices s
      rw [hturn] at h
      obtain ⟨p, hflow, hframes, -⟩ := exists_suspend_of_follow h
      rw [queuedBelow_of_suspend hflow] at hframes
      cases status with
      | idle => exact absurd h (follow_ne_idle f below _ t' s')
      | suspended => exact .inr ⟨rfl, f, below, op, p, hsettle, hop, hflow, hframes⟩

/-- A tick that ends does so in a turn that its other turns lead to. -/
theorem Runs.exists_ended {t t' : Tracker} {s s' : σ} {status : TickStatus}
    (h : Runs stage now t s (status, t', s')) :
    ∃ c, Relation.ReflTransGen (Goes stage now) (t, s) c ∧
      turn stage now c.1 c.2 = .ended status t' s' := by
  generalize hr : (status, t', s') = r at h
  induction h with
  | @ended t _ s _ _ hturn =>
      cases hr
      exact ⟨(t, s), .refl, hturn⟩
  | @more t t₁ s s₁ _ hturn _ ih =>
      obtain ⟨c, hpath, hended⟩ := ih hr
      have hfirst : Goes stage now (t, s) (t₁, s₁) := hturn
      exact ⟨c, .head hfirst hpath, hended⟩

/-- The frame that a suspended operation leaves on top is in the middle of that operation. -/
theorem SuspendsIn.top {c : Tracker × σ} {t' : Tracker} (h : SuspendsIn stage now c t') :
    ∃ top below, t'.frames = top :: below ∧ top.cursor < top.event.size ∧
      top.justEntered = false ∧ top.awaitingChild = false := by
  obtain ⟨f, below, op, p, hsettle, -, -, hframes⟩ := h
  obtain ⟨hawait, hfin⟩ := settled hsettle
  exact ⟨f.suspend p, below, hframes, Frame.isFinished_eq_false_iff.1 hfin, rfl, hawait⟩

/-- Whatever state a tracker is in and whatever it acts on, a turn misses nothing that it looks for;
so no turn of a tick does, also of one that never ends. A tick that ends returns idle exactly if no
frame is left. Otherwise the frame on top is the one whose operation has suspended in the last turn,
and it is in the middle of that operation, neither at its beginning nor waiting for another event. -/
theorem tick_truthful (stage : Stage σ) (now : Nat) (t : Tracker) (s : σ) :
    checkedTurn stage now t s = .ok (turn stage now t s) ∧
    ∀ status t' s', Runs stage now t s (status, t', s') →
      checkedTick stage now t s = .ok (status, t', s') ∧
      (status = .idle ↔ t'.isIdle = true) ∧
      (status = .suspended →
        (∃ top below, t'.frames = top :: below ∧ top.cursor < top.event.size ∧
          top.justEntered = false ∧ top.awaitingChild = false) ∧
        ∃ c, Relation.ReflTransGen (Goes stage now) (t, s) c ∧ SuspendsIn stage now c t') := by
  refine ⟨checkedTurn_eq t s, ?_⟩
  intro status t' s' hruns
  refine ⟨hruns.checkedTick_eq, ?_⟩
  obtain ⟨c, hpath, hended⟩ := hruns.exists_ended
  rcases ended_cases hended with ⟨rfl, hnil⟩ | ⟨rfl, hsuspends⟩
  · exact ⟨iff_of_true rfl (by simp [isIdle, hnil]), fun h => by cases h⟩
  · obtain ⟨top, below, hframes, -⟩ := hsuspends.top
    exact ⟨iff_of_false (by simp) (by simp [isIdle, hframes]),
      fun _ => ⟨hsuspends.top, c, hpath, hsuspends⟩⟩

end

/-- An event that changes the scene and then waits. -/
def departing : Tracker :=
  ⟨[.start (Event.make 0 none [.sceneLoad "hall" none, .wait 100])], .silent⟩

/-- A rehearsal with a scene to change to, which begins with an event of its own. -/
def hallOpen : Rehearsal :=
  { Rehearsal.opening .empty .empty with
    scenes := [("hall", ⟨[("_start_", [.hideBox])], []⟩)]
    fresh := 1 }

/-- The frame for the other scene's event is put below the one that goes on to wait. -/
theorem tick_truthful_departing : ∃ t' s',
    Runs Rehearsal.stage 0 departing hallOpen (.suspended, t', s') ∧
      checkedTick Rehearsal.stage 0 departing hallOpen = .ok (.suspended, t', s') ∧
      t'.frames.map (·.event.id.origin) = [0, 1] ∧
      ∃ top below, t'.frames = top :: below ∧ top.cursor < top.event.size ∧
        top.justEntered = false ∧ top.awaitingChild = false := by
  have hruns : ∃ t' s', Runs Rehearsal.stage 0 departing hallOpen (.suspended, t', s') ∧
      t'.frames.map (·.event.id.origin) = [0, 1] :=
    ⟨_, _, .more rfl (.ended rfl), rfl⟩
  obtain ⟨t', s', hruns, hids⟩ := hruns
  obtain ⟨hchecked, -, hsuspended⟩ :=
    (tick_truthful Rehearsal.stage 0 departing hallOpen).2 _ t' s' hruns
  exact ⟨t', s', hruns, hchecked, hids, (hsuspended rfl).1⟩

end Tracker

end Cutscene
