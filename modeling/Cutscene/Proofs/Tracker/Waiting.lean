import Cutscene.Proofs.Tracker.Turns

/-!
# Frames in the middle of an operation

An operation that suspends keeps its frame on the stack, and there the frame stays as it is until
its operation is executed again, whatever is called above it. `Frame.Amid` says that a frame is in
the middle of an operation of some kind, and `exists_left` that a turn neither makes nor loses such
frames but by executing their operation.
-/

namespace Cutscene

/-- Whether an operation asks for more time. -/
def Flow.suspends : Flow → Bool
  | suspend _ => true
  | _ => false

/-- The frame is in the middle of an operation of a kind: the operation has suspended. -/
structure Frame.Amid (kind : Operation → Bool) (f : Frame) : Prop where
  entered : f.justEntered = false
  free : f.awaitingChild = false
  operation : ∃ op, f.operation? = some op ∧ kind op = true

namespace Frame

variable {kind : Operation → Bool} {f : Frame}

theorem not_amid_start (e : Event) : ¬(start e).Amid kind :=
  fun h => Bool.false_ne_true h.entered.symm

theorem not_amid_advance (f : Frame) : ¬f.advance.Amid kind :=
  fun h => Bool.false_ne_true h.entered.symm

theorem not_amid_await (f : Frame) : ¬f.await.Amid kind :=
  fun h => Bool.false_ne_true h.free.symm

theorem Amid.resumed_eq (h : f.Amid kind) : f.resumed = f := resumed_of_not_awaiting h.free

theorem Amid.isFinished_eq (h : f.Amid kind) : f.resumed.isFinished = false := by
  obtain ⟨op, hop, -⟩ := h.operation
  rw [h.resumed_eq]
  exact isFinished_of_operation hop

theorem amid_suspend {op : Operation} (hfree : f.awaitingChild = false)
    (hop : f.operation? = some op) (hkind : kind op = true) (p : Progress) :
    (f.suspend p).Amid kind :=
  ⟨rfl, hfree, op, hop, hkind⟩

/-- Settling does not remove a frame that is in the middle of an operation. -/
theorem Amid.mem_settle {fs : List Frame} (h : f.Amid kind) (hf : f ∈ fs) :
    f ∈ Tracker.settle fs := by
  induction fs with
  | nil => exact absurd hf List.not_mem_nil
  | cons g fs ih =>
      rcases List.mem_cons.1 hf with rfl | hf
      · rw [Tracker.settle_cons_of_not_finished h.isFinished_eq, h.resumed_eq]
        exact List.mem_cons_self
      · cases hg : g.resumed.isFinished with
        | true =>
            rw [Tracker.settle_cons_of_finished hg]
            exact ih hf
        | false =>
            rw [Tracker.settle_cons_of_not_finished hg]
            exact List.mem_cons_of_mem _ hf

/-- Settling does not bring a frame into the middle of an operation. -/
theorem Amid.of_mem_settle {fs : List Frame} (h : f.Amid kind) (hf : f ∈ Tracker.settle fs) :
    f ∈ fs := by
  obtain ⟨g, below, hsettle⟩ := List.exists_cons_of_ne_nil (List.ne_nil_of_mem hf)
  obtain ⟨above, g', rfl, rfl, -, -⟩ := Tracker.exists_of_settle_eq_cons hsettle
  rw [hsettle] at hf
  rcases List.mem_cons.1 hf with rfl | hf
  · cases hawaiting : g'.awaitingChild with
    | true =>
        rw [resumed, if_pos hawaiting] at h
        exact absurd h (not_amid_advance g')
    | false =>
        rw [resumed_of_not_awaiting hawaiting]
        exact List.mem_append_right _ List.mem_cons_self
  · exact List.mem_append_right _ (List.mem_cons_of_mem _ hf)

end Frame

namespace Tracker

variable {σ : Type} {stage : Stage σ} {now : Nat}

/-- The tracker and the state that a turn leaves. -/
def Turn.left : Turn σ → Tracker × σ
  | .ended _ t s => (t, s)
  | .more t s => (t, s)

/-- What a turn leaves of the stack and of the state: `f` is the frame whose operation `r` is the
execution of. -/
structure Leaves (stage : Stage σ) (f : Frame) (below : List Frame) (r : Effect σ)
    (c : Tracker × σ) : Prop where
  state : c.2 = r.state ∨ ∃ line, c.2 = stage.note line r.state
  /-- What is below stays. Above it, only the frame itself can be in the middle of an operation. -/
  frames : ∃ above : List Frame, c.1.frames = above ++ queuedBelow r below ∧
    (∀ p, r.flow = .suspend p → f.suspend p ∈ above) ∧
    ∀ x ∈ above, ∀ kind, x.Amid kind → ∃ p, r.flow = .suspend p ∧ x = f.suspend p

/-- What a turn leaves is what its execution leaves, but for what the turn reports. -/
theorem Leaves.value_eq {α : Type} {v : σ → α} {f : Frame} {below : List Frame} {r : Effect σ}
    {c : Tracker × σ} (h : Leaves stage f below r c)
    (hnote : ∀ line s, v (stage.note line s) = v s) : v c.2 = v r.state := by
  rcases h.state with hstate | ⟨line, hstate⟩
  · rw [hstate]
  · rw [hstate, hnote]

/-- An execution that does not suspend leaves no frame in the middle of an operation above what is
below. -/
theorem leaves_of_not_suspend {f : Frame} {below : List Frame} {r : Effect σ} {c : Tracker × σ}
    (above : List Frame) (hstate : c.2 = r.state ∨ ∃ line, c.2 = stage.note line r.state)
    (hframes : c.1.frames = above ++ queuedBelow r below) (hflow : ∀ p, r.flow ≠ .suspend p)
    (habove : ∀ x ∈ above, ∀ kind, ¬x.Amid kind) : Leaves stage f below r c where
  state := hstate
  frames := ⟨above, hframes, fun p hp => absurd hp (hflow p),
    fun x hx kind hamid => absurd hamid (habove x hx kind)⟩

/-- A turn with nothing left changes nothing but the stack. -/
theorem left_turn_idle {fs : List Frame} (h : settle fs = []) (voices : Voices) (s : σ) :
    (turn stage now ⟨fs, voices⟩ s).left = (⟨[], voices⟩, s) := by
  rw [turn_idle h, Turn.left]

/-- A turn with something left executes the operation on top. -/
theorem exists_left (stage : Stage σ) (now : Nat) {t : Tracker} {f : Frame} {below : List Frame}
    (h : settle t.frames = f :: below) (s : σ) : ∃ op, f.operation? = some op ∧
      turn stage now t s = follow stage f below (f.perform stage now op t.voices s) ∧
      Leaves stage f below (f.perform stage now op t.voices s) (turn stage now t s).left := by
  obtain ⟨op, hop, hturn : turn stage now t s = _⟩ := turn_active h t.voices s
  refine ⟨op, hop, hturn, ?_⟩
  rw [hturn]
  generalize f.perform stage now op t.voices s = r
  have hadvanced : ∀ x ∈ [f.advance], ∀ kind, ¬x.Amid kind := by
    intro x hx kind
    rw [List.mem_singleton.1 hx]
    exact Frame.not_amid_advance f
  cases hflow : r.flow with
  | next =>
      rw [follow_next hflow]
      exact leaves_of_not_suspend [f.advance] (.inl rfl) rfl (by simp [hflow]) hadvanced
  | suspend p =>
      rw [follow_suspend hflow]
      refine ⟨.inl rfl, [f.suspend p], rfl, ?_, ?_⟩
      · intro p' hp'
        obtain rfl := Flow.suspend.inj (hflow.symm.trans hp')
        exact List.mem_singleton_self _
      · intro x hx kind hamid
        exact ⟨p, hflow, List.mem_singleton.1 hx⟩
  | call e =>
      cases hruns : isRunning ⟨f.await :: queuedBelow r below, r.voices⟩ e with
      | true =>
          rw [follow_refused hflow hruns]
          exact leaves_of_not_suspend [f.advance] (.inr ⟨_, rfl⟩) rfl (by simp [hflow])
            hadvanced
      | false =>
          rw [follow_call hflow hruns]
          refine leaves_of_not_suspend [.start e, f.await] (.inr ⟨_, rfl⟩) rfl
            (by simp [hflow]) ?_
          intro x hx kind
          rcases List.mem_cons.1 hx with rfl | hx
          · exact Frame.not_amid_start e
          · rw [List.mem_singleton.1 hx]
            exact Frame.not_amid_await f
  | cancel =>
      rw [follow_cancel hflow]
      exact leaves_of_not_suspend [] (.inr ⟨_, rfl⟩) rfl (by simp [hflow]) (by simp)

/-- A frame that is in the middle of an operation after a turn was below, or its operation has just
suspended. -/
theorem Leaves.mem_below_or_eq {kind : Operation → Bool} {f x : Frame} {below : List Frame}
    {r : Effect σ} {c : Tracker × σ} (h : Leaves stage f below r c) (hx : x ∈ c.1.frames)
    (hamid : x.Amid kind) : x ∈ below ∨ ∃ p, r.flow = .suspend p ∧ x = f.suspend p := by
  obtain ⟨above, hframes, -, habove⟩ := h.frames
  rw [hframes, queuedBelow_eq, List.mem_append, List.mem_append] at hx
  rcases hx with hx | hx | hx
  · exact .inr (habove x hx kind hamid)
  · exact .inl hx
  · obtain ⟨e, -, rfl⟩ := Option.map_eq_some_iff.1 (Option.mem_toList.1 hx)
    exact absurd hamid (Frame.not_amid_start e)

/-- What is below the active frame stays. -/
theorem Leaves.mem_of_mem_below {f x : Frame} {below : List Frame} {r : Effect σ} {c : Tracker × σ}
    (h : Leaves stage f below r c) (hx : x ∈ below) : x ∈ c.1.frames := by
  obtain ⟨above, hframes, -, -⟩ := h.frames
  rw [hframes, queuedBelow_eq]
  exact List.mem_append_right _ (List.mem_append_left _ hx)

/-- A frame in the middle of an operation stays on the stack through a turn, unless its operation is
executed and does not suspend. -/
theorem Leaves.exists_amid {kind : Operation → Bool} {fs below : List Frame} {f : Frame}
    {op : Operation} {r : Effect σ} {c : Tracker × σ} (h : Leaves stage f below r c)
    (hsettle : settle fs = f :: below) (hop : f.operation? = some op)
    (hkind : (kind op = true ∧ ∃ p, r.flow = .suspend p) ∨
      (kind op = false ∧ ∃ x ∈ fs, x.Amid kind)) : ∃ x ∈ c.1.frames, x.Amid kind := by
  rcases hkind with ⟨hkind, p, hflow⟩ | ⟨hkind, x, hx, hamid⟩
  · obtain ⟨above, hframes, hsuspend, -⟩ := h.frames
    rw [hframes]
    exact ⟨f.suspend p, List.mem_append_left _ (hsuspend p hflow),
      Frame.amid_suspend (settled hsettle).1 hop hkind p⟩
  · have hmem := hamid.mem_settle hx
    rw [hsettle] at hmem
    rcases List.mem_cons.1 hmem with rfl | hbelow
    · -- the operation that it is in the middle of is another than the one executed
      obtain ⟨op', hop', hkind'⟩ := hamid.operation
      obtain rfl : op' = op := Option.some.inj (hop'.symm.trans hop)
      rw [hkind] at hkind'
      exact absurd hkind' Bool.false_ne_true
    · exact ⟨x, h.mem_of_mem_below hbelow, hamid⟩

/-- With something left, a turn does not end the tick as idle. -/
theorem follow_ne_idle (f : Frame) (below : List Frame) (r : Effect σ) (t : Tracker) (s : σ) :
    follow stage f below r ≠ .ended .idle t s := by
  unfold follow
  dsimp only
  split
  · simp
  · simp
  · split <;> simp
  · simp

/-- A tick that ends with nothing left to run leaves no frame. -/
theorem Runs.frames_eq_nil {t : Tracker} {s : σ} {r : TickStatus × Tracker × σ}
    (h : Runs stage now t s r) (hidle : r.1 = .idle) : r.2.1.frames = [] := by
  induction h with
  | more _ _ ih => exact ih hidle
  | @ended t t' s s' status hturn =>
      obtain rfl : status = .idle := hidle
      cases hsettle : settle t.frames with
      | nil =>
          rw [show t = ⟨t.frames, t.voices⟩ from rfl, turn_idle hsettle] at hturn
          obtain ⟨-, rfl, -⟩ := Turn.ended.inj hturn
          rfl
      | cons f below =>
          obtain ⟨op, -, hfollow, -⟩ := exists_left stage now hsettle s
          exact absurd (hfollow.symm.trans hturn) (follow_ne_idle f below _ t' s')

/-- What the turns of a tick keep holds at its end. -/
theorem Runs.invariant {I : Tracker × σ → Prop} {t : Tracker} {s : σ}
    {r : TickStatus × Tracker × σ} (h : Runs stage now t s r) (hI : I (t, s))
    (hturn : ∀ c, Relation.ReflTransGen (Goes stage now) (t, s) c → I c →
      I (turn stage now c.1 c.2).left) : I r.2 := by
  induction h with
  | @ended t t' s s' status hlast =>
      have hleft := hturn (t, s) .refl hI
      rwa [hlast] at hleft
  | @more t t' s s' r hgo _ ih =>
      have hleft := hturn (t, s) .refl hI
      rw [hgo] at hleft
      have hfirst : Goes stage now (t, s) (t', s') := hgo
      exact ih hleft fun c hpath => hturn c (.head hfirst hpath)

end Tracker

end Cutscene
