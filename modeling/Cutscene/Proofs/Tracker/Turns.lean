import Mathlib.Logic.Relation
import Cutscene.Tracker

/-!
# Turns

What one turn of a tick can do, said once. Settling takes frames off the top whose event has ended
and brings the frame below them to where it goes on (`exists_of_settle_eq_cons`). Then either
nothing is left (`turn_idle`), or the operation of the frame on top is executed once and its flow
decides what becomes of the stack (`turn_active` and the `follow_` lemmas).

A tick is a path of turns: `Goes` is one turn of a tick that goes on, and `Runs` is the whole path
of a tick that ends. A tick need not end. It has a value then too, as every loop has, but `Runs`
does not hold of it.
-/

namespace Cutscene

namespace Frame

/-- The frame when nothing is above it any more: an operation that called an event is done. -/
def resumed (f : Frame) : Frame := if f.awaitingChild then f.advance else f

@[simp] theorem resumed_await (f : Frame) : f.await.resumed = f.advance := rfl

theorem resumed_of_not_awaiting {f : Frame} (h : f.awaitingChild = false) : f.resumed = f := by
  simp [resumed, h]

@[simp] theorem awaitingChild_resumed (f : Frame) : f.resumed.awaitingChild = false := by
  cases h : f.awaitingChild <;> simp [resumed, advance, h]

@[simp] theorem event_resumed (f : Frame) : f.resumed.event = f.event := by
  cases h : f.awaitingChild <;> simp [resumed, advance, h]

@[simp] theorem event_advance (f : Frame) : f.advance.event = f.event := rfl

@[simp] theorem event_start (e : Event) : (start e).event = e := rfl

@[simp] theorem event_await (f : Frame) : f.await.event = f.event := rfl

theorem isFinished_eq_false_iff {f : Frame} : f.isFinished = false ↔ f.cursor < f.event.size := by
  rw [isFinished, decide_eq_false_iff_not, Nat.not_le]

/-- A frame that is not at its end has a present operation. -/
theorem exists_operation {f : Frame} (h : f.isFinished = false) : ∃ op, f.operation? = some op :=
  ⟨_, List.getElem?_eq_getElem (isFinished_eq_false_iff.1 h)⟩

theorem isFinished_of_operation {f : Frame} {op : Operation} (h : f.operation? = some op) :
    f.isFinished = false :=
  isFinished_eq_false_iff.2 (List.getElem?_eq_some_iff.1 h).1

/-- What is left when the present operation of a frame is executed in a turn. -/
def perform {σ : Type} (stage : Stage σ) (now : Nat) (f : Frame) (op : Operation) (voices : Voices)
    (s : σ) : Effect σ :=
  let entry := if f.justEntered then " (enter)" else ""
  execute stage f.event f.cursor op now f.justEntered f.progress voices
    (stage.say .trace s!"event {f.event.displayName} [{f.cursor}] {op.opcode}{entry}" s)

end Frame

namespace Tracker

/-! ## Settling -/

theorem settle_cons (f : Frame) (below : List Frame) :
    settle (f :: below) = if f.resumed.isFinished then settle below else f.resumed :: below := rfl

theorem settle_cons_of_finished {f : Frame} {below : List Frame} (h : f.resumed.isFinished = true) :
    settle (f :: below) = settle below := by
  rw [settle_cons, if_pos h]

theorem settle_cons_of_not_finished {f : Frame} {below : List Frame}
    (h : f.resumed.isFinished = false) : settle (f :: below) = f.resumed :: below := by
  rw [settle_cons, if_neg (by simp [h])]

/-- The frame on top of a settled stack is one of the frames before, resumed and not at its end;
what was above it has ended, and what is below it is untouched. -/
theorem exists_of_settle_eq_cons {fs below : List Frame} {f : Frame} (h : settle fs = f :: below) :
    ∃ above g, fs = above ++ g :: below ∧ f = g.resumed ∧ f.isFinished = false ∧
      ∀ x ∈ above, x.resumed.isFinished = true := by
  induction fs with
  | nil => exact absurd h (by simp [settle])
  | cons g rest ih =>
      by_cases hg : g.resumed.isFinished = true
      · rw [settle_cons_of_finished hg] at h
        obtain ⟨above, g', hfs, hf, hfin, habove⟩ := ih h
        refine ⟨g :: above, g', by rw [hfs, List.cons_append], hf, hfin, ?_⟩
        intro x hx
        rcases List.mem_cons.1 hx with rfl | hx
        · exact hg
        · exact habove x hx
      · rw [Bool.not_eq_true] at hg
        rw [settle_cons_of_not_finished hg] at h
        obtain ⟨rfl, rfl⟩ := List.cons.inj h
        exact ⟨[], g, rfl, rfl, hg, by simp⟩

/-- The frame on top of a settled stack waits for nothing and is not at its end. -/
theorem settled {fs below : List Frame} {f : Frame} (h : settle fs = f :: below) :
    f.awaitingChild = false ∧ f.isFinished = false := by
  obtain ⟨_, g, _, rfl, hfin, _⟩ := exists_of_settle_eq_cons h
  exact ⟨Frame.awaitingChild_resumed g, hfin⟩

/-- A settled stack stays settled when the operation on top suspends, whatever is below. -/
theorem settle_suspend {fs below below' : List Frame} {f : Frame} (h : settle fs = f :: below)
    (p : Progress) : settle (f.suspend p :: below') = f.suspend p :: below' := by
  obtain ⟨hawait, hfin⟩ := settled h
  have hresumed : (f.suspend p).resumed = f.suspend p := Frame.resumed_of_not_awaiting hawait
  have hfin' : (f.suspend p).isFinished = false := hfin
  rw [settle_cons, hresumed, hfin', if_neg Bool.false_ne_true]

/-! ## One turn -/

section

variable {σ : Type} {stage : Stage σ} {now : Nat}

/-- With nothing left, the tick is over. -/
theorem turn_idle {fs : List Frame} (h : settle fs = []) (voices : Voices) (s : σ) :
    turn stage now ⟨fs, voices⟩ s = .ended .idle ⟨[], voices⟩ s := by
  rw [turn, h]

/-- The operation of the frame on top of the settled stack is executed. -/
theorem turn_active {fs below : List Frame} {f : Frame} (h : settle fs = f :: below)
    (voices : Voices) (s : σ) : ∃ op, f.operation? = some op ∧
      turn stage now ⟨fs, voices⟩ s = follow stage f below (f.perform stage now op voices s) := by
  obtain ⟨_, _, _, _, hfin, _⟩ := exists_of_settle_eq_cons h
  obtain ⟨op, hop⟩ := Frame.exists_operation hfin
  refine ⟨op, hop, ?_⟩
  simp only [turn, h, hop, Frame.perform]

/-- A turn depends on the frames only by what is left of them when they are settled. -/
theorem turn_congr {fs fs' : List Frame} (h : settle fs = settle fs') (voices : Voices) (s : σ) :
    turn stage now ⟨fs, voices⟩ s = turn stage now ⟨fs', voices⟩ s := by
  cases hs : settle fs' with
  | nil => rw [turn_idle hs, turn_idle (h.trans hs)]
  | cons f below =>
      obtain ⟨op, hop, heq : turn stage now ⟨fs, voices⟩ s = _⟩ := turn_active (h.trans hs) voices s
      obtain ⟨op', hop', heq' : turn stage now ⟨fs', voices⟩ s = _⟩ := turn_active hs voices s
      obtain rfl : op = op' := Option.some.inj (hop.symm.trans hop')
      rw [heq, heq']

theorem isRunning_iff {t : Tracker} {e : Event} :
    t.isRunning e = true ↔ e.id ∈ t.frames.map (·.event.id) := by
  simp [isRunning]

theorem isRunning_eq_false_iff {t : Tracker} {e : Event} :
    t.isRunning e = false ↔ ∀ f ∈ t.frames, f.event.id ≠ e.id := by
  simp [isRunning]

variable {f : Frame} {below : List Frame} {r : Effect σ}

theorem queuedBelow_eq : queuedBelow r below = below ++ (r.queued.map Frame.start).toList := by
  rw [queuedBelow]
  cases r.queued with
  | none => simp
  | some e => simp

theorem follow_next (h : r.flow = .next) :
    follow stage f below r = .more ⟨f.advance :: queuedBelow r below, r.voices⟩ r.state := by
  simp only [follow, h]

theorem follow_suspend {p : Progress} (h : r.flow = .suspend p) :
    follow stage f below r =
      .ended .suspended ⟨f.suspend p :: queuedBelow r below, r.voices⟩ r.state := by
  simp only [follow, h]

/-- A called event is put on top, unless it is running. -/
theorem follow_call {e : Event} (h : r.flow = .call e)
    (hfree : isRunning ⟨f.await :: queuedBelow r below, r.voices⟩ e = false) :
    follow stage f below r =
      .more ⟨.start e :: f.await :: queuedBelow r below, r.voices⟩
        (stage.say .debug s!"event {e.displayName} called" r.state) := by
  simp only [follow, h, call, hfree, Bool.false_eq_true, if_false]

/-- The call of an event that is running is refused, and the operation is done. -/
theorem follow_refused {e : Event} (h : r.flow = .call e)
    (hruns : isRunning ⟨f.await :: queuedBelow r below, r.voices⟩ e = true) :
    follow stage f below r =
      .more ⟨f.advance :: queuedBelow r below, r.voices⟩
        (stage.say .error
          s!"event {e.displayName} is already running; recursive call ignored" r.state) := by
  simp only [follow, h, call, hruns, if_true]

theorem follow_cancel (h : r.flow = .cancel) :
    follow stage f below r =
      .more ⟨queuedBelow r below, r.voices⟩
        (stage.say .debug s!"event {f.event.displayName} cancelled at [{f.cursor}]" r.state) := by
  simp only [follow, h, cancelCurrent]

/-- Only an operation that suspends ends a turn with something left to run. -/
theorem exists_suspend_of_follow {r : Effect σ} {status : TickStatus} {t : Tracker} {s : σ}
    (h : follow stage f below r = .ended status t s) :
    ∃ p, r.flow = .suspend p ∧ t.frames = f.suspend p :: queuedBelow r below ∧ s = r.state := by
  cases hflow : r.flow with
  | next =>
      rw [follow_next hflow] at h
      cases h
  | suspend p =>
      rw [follow_suspend hflow] at h
      obtain ⟨-, rfl, rfl⟩ := Turn.ended.inj h
      exact ⟨p, rfl, rfl, rfl⟩
  | call e =>
      cases hruns : isRunning ⟨f.await :: queuedBelow r below, r.voices⟩ e with
      | true =>
          rw [follow_refused hflow hruns] at h
          cases h
      | false =>
          rw [follow_call hflow hruns] at h
          cases h
  | cancel =>
      rw [follow_cancel hflow] at h
      cases h

end

/-! ## Ticks -/

section

variable {σ : Type} {stage : Stage σ} {now : Nat}

/-- A tick is its first turn and, if that goes on, the tick from there. -/
theorem tick_eq (t : Tracker) (s : σ) : tick stage now t s =
    match turn stage now t s with
    | .ended status t' s' => (status, t', s')
    | .more t' s' => tick stage now t' s' := by
  have hnonempty : Nonempty (TickStatus × Tracker × σ) := ⟨.idle, t, s⟩
  unfold tick
  -- in the identity monad the loop is a fixed point of its body
  rw [repeatM_eq_of_monadTail]
  unfold repeatM.body
  simp only [bind, pure]
  cases turn stage now t s with
  | ended status t' s' => rfl
  | more t' s' => rfl

/-- A tick that ends: the turns that it takes, the last of which gives its result. -/
inductive Runs (stage : Stage σ) (now : Nat) :
    Tracker → σ → TickStatus × Tracker × σ → Prop
  | ended {t t' : Tracker} {s s' : σ} {status : TickStatus}
      (hturn : turn stage now t s = .ended status t' s') : Runs stage now t s (status, t', s')
  | more {t t' : Tracker} {s s' : σ} {r : TickStatus × Tracker × σ}
      (hturn : turn stage now t s = .more t' s') (hrest : Runs stage now t' s' r) :
      Runs stage now t s r

/-- A tick that ends is what `tick` says. -/
theorem Runs.tick_eq {t : Tracker} {s : σ} {r : TickStatus × Tracker × σ}
    (h : Runs stage now t s r) : tick stage now t s = r := by
  induction h with
  | ended hturn => rw [Tracker.tick_eq, hturn]
  | more hturn _ ih =>
      rw [Tracker.tick_eq, hturn]
      exact ih

/-- A tick depends on the frames only by what is left of them when they are settled. -/
theorem Runs.congr {fs fs' : List Frame} (h : settle fs = settle fs') {voices : Voices} {s : σ}
    {r : TickStatus × Tracker × σ} (hr : Runs stage now ⟨fs', voices⟩ s r) :
    Runs stage now ⟨fs, voices⟩ s r := by
  have hturn : turn stage now ⟨fs, voices⟩ s = turn stage now ⟨fs', voices⟩ s :=
    turn_congr h voices s
  cases hr with
  | ended h' => exact .ended (hturn.trans h')
  | more h' hrest => exact .more (hturn.trans h') hrest

/-- One turn of a tick that goes on. -/
def Goes (stage : Stage σ) (now : Nat) (c c' : Tracker × σ) : Prop :=
  turn stage now c.1 c.2 = .more c'.1 c'.2

/-- From a turn that ends the tick no path leads on. -/
theorem eq_of_path_of_ended {c c' : Tracker × σ} {status : TickStatus} {t : Tracker} {s : σ}
    (hturn : turn stage now c.1 c.2 = .ended status t s)
    (h : Relation.ReflTransGen (Goes stage now) c c') : c' = c := by
  rcases Relation.ReflTransGen.cases_head h with rfl | ⟨_, hgo, -⟩
  · rfl
  · cases hturn.symm.trans hgo

/-- From a turn that does not end the tick every path leads to what the turn leaves. -/
theorem eq_or_path_of_more {c c' : Tracker × σ} {t : Tracker} {s : σ}
    (hturn : turn stage now c.1 c.2 = .more t s)
    (h : Relation.ReflTransGen (Goes stage now) c c') :
    c' = c ∨ Relation.ReflTransGen (Goes stage now) (t, s) c' := by
  rcases Relation.ReflTransGen.cases_head h with rfl | ⟨next, hgo, hrest⟩
  · exact .inl rfl
  · obtain ⟨rfl, rfl⟩ := Turn.more.inj (hturn.symm.trans hgo)
    exact .inr hrest

/-- What ends at the end of a path of turns ends at its beginning. -/
theorem Runs.of_path {c c' : Tracker × σ} (h : Relation.ReflTransGen (Goes stage now) c c')
    {r : TickStatus × Tracker × σ} (hr : Runs stage now c'.1 c'.2 r) :
    Runs stage now c.1 c.2 r := by
  induction h using Relation.ReflTransGen.head_induction_on with
  | refl => exact hr
  | head hgo _ ih => exact .more hgo ih

end

end Tracker

end Cutscene
