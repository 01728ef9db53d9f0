import Cutscene.Proofs.Tracker.Tallies

/-!
# Operations that go on from tick to tick

An operation that suspends ends its tick, and when its frame is on top again in a later tick, it
goes on. `Stint` is an operation from the moment at which it is entered: the turns that execute it,
each in a tick of its own, at times and in states of the stage that may be any. What comes between
two of these turns is left open but for the frame that must be on top again (`Resumes`); a stint
that is not interrupted at all is the case in which nothing touches the tracker (`stint_onward`).

Every turn of a stint but the last suspends. So an invariant of a stint is shown by induction on its
turns, where `Stint.next` leads from the turn that suspends the frame to the one that resumes it.
-/

namespace Cutscene

namespace Tracker

/-- The frame that was on top when a tick ended is on top when a later turn begins. -/
def Resumes (t t' : Tracker) : Prop := (settle t'.frames).head? = t.frames.head?

section

variable {σ : Type} {stage : Stage σ} {now : Nat} {f : Frame} {below : List Frame} {op : Operation}

/-- The operation on top is done with the turn, and its frame goes on with the next. -/
def Completes (stage : Stage σ) (now : Nat) (c : Tracker × σ) : Prop :=
  ∃ f below s, settle c.1.frames = f :: below ∧
    turn stage now c.1 c.2 = .more ⟨f.advance :: below, c.1.voices⟩ s

/-- The operation on top ends the tick and keeps some progress. -/
def Suspends (stage : Stage σ) (now : Nat) (c : Tracker × σ) (p : Progress) : Prop :=
  ∃ f below s, settle c.1.frames = f :: below ∧
    turn stage now c.1 c.2 = .ended .suspended ⟨f.suspend p :: below, c.1.voices⟩ s

theorem Suspends.not_completes {c : Tracker × σ} {p : Progress} (h : Suspends stage now c p) :
    ¬Completes stage now c := by
  obtain ⟨f, below, s, -, hended⟩ := h
  rintro ⟨f', below', s', -, hmore⟩
  cases hended.symm.trans hmore

/-- The operation on top decides what the turn does. -/
theorem turn_eq_follow {c : Tracker × σ} (hsettle : settle c.1.frames = f :: below)
    (hop : f.operation? = some op) :
    turn stage now c.1 c.2 = follow stage f below (f.perform stage now op c.1.voices c.2) := by
  obtain ⟨op', hop', hturn, -⟩ := exists_left stage now hsettle c.2
  obtain rfl := Option.some.inj (hop.symm.trans hop')
  exact hturn

/-- The turns that execute an operation from when it is entered, numbered from `0` to `n`: their
times, and the trackers and states that they begin with. All but the last of them suspend, and
`meanwhile` tells of what one turn leaves and the next begins with. -/
structure Stint (stage : Stage σ) (meanwhile : Tracker × σ → Tracker × σ → Prop) (op : Operation)
    (time : Nat → Nat) (place : Nat → Tracker × σ) (n : Nat) : Prop where
  enters : ∃ f below, settle (place 0).1.frames = f :: below ∧ f.operation? = some op ∧
    f.justEntered = true
  goesOn : ∀ i < n, ∃ c, turn stage (time i) (place i).1 (place i).2 = .ended .suspended c.1 c.2 ∧
    Resumes c.1 (place (i + 1)).1 ∧ meanwhile c (place (i + 1))

/-- A frame that has suspended is on top again if nothing happens. -/
theorem resumes_of_suspended {t t' : Tracker} {s s' : σ}
    (h : turn stage now t s = .ended .suspended t' s') : Resumes t' t' := by
  cases hsettle : settle t.frames with
  | nil =>
      rw [show turn stage now t s = _ from turn_idle hsettle t.voices s] at h
      cases h
  | cons f below =>
      obtain ⟨op, -, hturn : turn stage now t s = _⟩ := turn_active hsettle t.voices s
      obtain ⟨p, -, hframes, -⟩ := exists_suspend_of_follow (hturn.symm.trans h)
      rw [Resumes, hframes, settle_suspend hsettle p]

/-- The turns of an operation, each beginning with the tracker that the one before has left. Between
them only the state is changed. -/
def onward (stage : Stage σ) (time : Nat → Nat) (between : Nat → σ → σ) (c : Tracker × σ) :
    Nat → Tracker × σ
  | 0 => c
  | i + 1 =>
    let before := onward stage time between c i
    let left := (turn stage (time i) before.1 before.2).left
    (left.1, between i left.2)

/-- An operation that is not interrupted is in a stint as long as it suspends. -/
theorem stint_onward {meanwhile : Tracker × σ → Tracker × σ → Prop} {time : Nat → Nat}
    {between : Nat → σ → σ} (hbetween : ∀ i c, meanwhile c (c.1, between i c.2)) {c : Tracker × σ}
    {n : Nat} (hsettle : settle c.1.frames = f :: below) (hop : f.operation? = some op)
    (hentered : f.justEntered = true)
    (h : ∀ i < n, ∃ t s, turn stage (time i) (onward stage time between c i).1
      (onward stage time between c i).2 = .ended .suspended t s) :
    Stint stage meanwhile op time (onward stage time between c) n where
  enters := ⟨f, below, hsettle, hop, hentered⟩
  goesOn i hi := by
    obtain ⟨t, s, hturn⟩ := h i hi
    have hnext : onward stage time between c (i + 1) = (t, between i s) :=
      congrArg (fun r => (r.left.1, between i r.left.2)) hturn
    rw [hnext]
    exact ⟨(t, s), hturn, resumes_of_suspended hturn, hbetween i (t, s)⟩

namespace Stint

variable {meanwhile : Tracker × σ → Tracker × σ → Prop} {time : Nat → Nat}
  {place : Nat → Tracker × σ} {n : Nat}

/-- Only the last turn of a stint can let the tick go on. -/
theorem not_more (h : Stint stage meanwhile op time place n) {i : Nat} (hi : i < n) (t : Tracker)
    (s : σ) : turn stage (time i) (place i).1 (place i).2 ≠ .more t s := by
  intro hmore
  obtain ⟨c, hended, -, -⟩ := h.goesOn i hi
  cases hended.symm.trans hmore

theorem not_completes (h : Stint stage meanwhile op time place n) {i : Nat} (hi : i < n) :
    ¬Completes stage (time i) (place i) := by
  rintro ⟨f, below, s, -, hmore⟩
  exact h.not_more hi _ s hmore

/-- From one turn of a stint to the next: the frame that was on top is on top again. -/
theorem next (h : Stint stage meanwhile op time place n) {i : Nat} (hi : i < n) {voices : Voices}
    {s : σ} (hturn : turn stage (time i) (place i).1 (place i).2 =
      .ended .suspended ⟨f :: below, voices⟩ s) :
    (∃ below', settle (place (i + 1)).1.frames = f :: below') ∧
      meanwhile (⟨f :: below, voices⟩, s) (place (i + 1)) := by
  obtain ⟨⟨t, s'⟩, hended, hresumes, hmeanwhile⟩ := h.goesOn i hi
  obtain ⟨-, rfl, rfl⟩ := Turn.ended.inj (hturn.symm.trans hended)
  exact ⟨List.head?_eq_some_iff.1 hresumes, hmeanwhile⟩

end Stint

end

end Tracker

end Cutscene
