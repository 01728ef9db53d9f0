import Cutscene.Proofs.Stage.Mirrors
import Cutscene.Proofs.Tracker.Waiting
import Cutscene.Stage.Rehearsal

/-!
# Tallies

What the turns of a tick ask of a stage can be written down beside them: `Stage.recorded` keeps a
list and otherwise does what the stage does (`Stage.recorded_mirrors`). `Tracker.asked` is what one
turn asks for.

A tick may take any number of turns. `Tracker.tally` adds up a number that belongs to a turn over
the first turns of a tick, so that whatever bounds it for all numbers of turns bounds it for the
tick, also for one that does not end. If every turn pays for its number out of a fund that nothing
fills, the tally never exceeds the fund (`Tracker.tally_le`). Of a tick that ends, all that its
turns do can be written down in a list (`Tracker.RunsDoing`).
-/

namespace Cutscene

/-- A stage that writes down what is asked of it, the oldest first; of the presses, those that are
taken. -/
def Stage.recorded {σ : Type} (stage : Stage σ) : Stage (σ × List StageCall) where
  note l x := (stage.note l x.1, x.2)
  hasFlag name x := stage.hasFlag name x.1
  setFlag name x := (stage.setFlag name x.1, x.2 ++ [.setFlag name])
  unsetFlag name x := (stage.unsetFlag name x.1, x.2 ++ [.unsetFlag name])
  findEvent name x := stage.findEvent name x.1
  consume c x :=
    let (pressed, s) := stage.consume c x.1
    (pressed, s, if pressed then x.2 ++ [.consume c] else x.2)
  isBoxOpen x := stage.isBoxOpen x.1
  openBox x := (stage.openBox x.1, x.2 ++ [.openBox])
  closeBox x := (stage.closeBox x.1, x.2 ++ [.closeBox])
  setText text x := (stage.setText text x.1, x.2 ++ [.setText text])
  appendText text x := (stage.appendText text x.1, x.2 ++ [.appendText text])
  hasEntity name x := stage.hasEntity name x.1
  loadScene path door x :=
    let (start, s) := stage.loadScene path door x.1
    (start, s, x.2 ++ [.loadScene path door])
  overlay x := stage.overlay x.1
  setOverlay c x := (stage.setOverlay c x.1, x.2 ++ [.setOverlay c])
  lockMovement locked x := (stage.lockMovement locked x.1, x.2 ++ [.lockMovement locked])
  showCursor visible x := (stage.showCursor visible x.1, x.2 ++ [.showCursor visible])
  showOptions first second highlighted x :=
    (stage.showOptions first second highlighted x.1, x.2 ++ [.showOptions first second highlighted])
  hideOptions x := (stage.hideOptions x.1, x.2 ++ [.hideOptions])
  showExpression expression x :=
    (stage.showExpression expression x.1, x.2 ++ [.showExpression expression])
  dialogClick x := (stage.dialogClick x.1, x.2 ++ [.dialogClick])
  playMusic path looped x := (stage.playMusic path looped x.1, x.2 ++ [.playMusic path looped])
  stopMusic x := (stage.stopMusic x.1, x.2 ++ [.stopMusic])
  pauseMusic x := (stage.pauseMusic x.1, x.2 ++ [.pauseMusic])
  resumeMusic x := (stage.resumeMusic x.1, x.2 ++ [.resumeMusic])
  entityCue entity cue x := (stage.entityCue entity cue x.1, x.2 ++ [.entityCue entity cue])
  setTile layer place atlas rotation x :=
    (stage.setTile layer place atlas rotation x.1, x.2 ++ [.setTile layer place atlas rotation])

/-- But for what it writes down, a recorded stage does what the stage does. -/
theorem Stage.recorded_mirrors {σ : Type} (stage : Stage σ) :
    stage.recorded.Mirrors stage Prod.fst where
  note _ _ := rfl
  hasFlag _ _ := rfl
  setFlag _ _ := rfl
  unsetFlag _ _ := rfl
  findEvent _ _ := rfl
  consume _ _ := rfl
  isBoxOpen _ := rfl
  openBox _ := rfl
  closeBox _ := rfl
  setText _ _ := rfl
  appendText _ _ := rfl
  hasEntity _ _ := rfl
  loadScene _ _ _ := rfl
  overlay _ := rfl
  setOverlay _ _ := rfl
  lockMovement _ _ := rfl
  showCursor _ _ := rfl
  showOptions _ _ _ _ := rfl
  hideOptions _ := rfl
  showExpression _ _ := rfl
  dialogClick _ := rfl
  playMusic _ _ _ := rfl
  stopMusic _ := rfl
  pauseMusic _ := rfl
  resumeMusic _ := rfl
  entityCue _ _ _ := rfl
  setTile _ _ _ _ _ := rfl

namespace Tracker

variable {σ : Type} (stage : Stage σ) (now : Nat)

/-- What the next turn asks of the stage. -/
def asked (c : Tracker × σ) : List StageCall :=
  (turn stage.recorded now c.1 (c.2, [])).left.2.2

/-- A number that belongs to a turn, added up over the first turns of a tick. -/
def tally (number : Tracker × σ → Nat) : Nat → Tracker × σ → Nat
  | 0, _ => 0
  | n + 1, c =>
    number c + match turn stage now c.1 c.2 with
      | .ended _ _ _ => 0
      | .more t s => tally number n (t, s)

variable {stage now} {number number' : Tracker × σ → Nat}

/-- A recorded turn is the turn, with what it asks for. -/
theorem left_turn_recorded (c : Tracker × σ) :
    (turn stage.recorded now c.1 (c.2, [])).left =
      ((turn stage now c.1 c.2).left.1, (turn stage now c.1 c.2).left.2, asked stage now c) := by
  have hsame := stage.recorded_mirrors.turn now c.1 (c.2, [])
  rw [asked, ← hsame]
  cases turn stage.recorded now c.1 (c.2, []) with
  | ended status t x => rfl
  | more t x => rfl

/-- What a turn asks of the stage is what the execution of its operation asks. -/
theorem asked_of_active {c : Tracker × σ} {f : Frame} {below : List Frame} {op : Operation}
    (hsettle : settle c.1.frames = f :: below) (hop : f.operation? = some op) :
    asked stage now c = (f.perform stage.recorded now op c.1.voices (c.2, [])).state.2 := by
  obtain ⟨op', hop', -, hleaves⟩ := exists_left stage.recorded now hsettle (c.2, [])
  obtain rfl := Option.some.inj (hop.symm.trans hop')
  exact hleaves.value_eq (v := Prod.snd) fun _ _ => rfl

theorem tally_mono (h : ∀ c, number c ≤ number' c) (n : Nat) (c : Tracker × σ) :
    tally stage now number n c ≤ tally stage now number' n c := by
  induction n generalizing c with
  | zero => exact Nat.le_refl _
  | succ n ih =>
      rw [tally, tally]
      refine Nat.add_le_add (h c) ?_
      split
      · exact Nat.le_refl _
      · exact ih _

/-- What every turn pays out of a fund adds up to at most the fund. -/
theorem tally_le (fund : Tracker × σ → Nat)
    (h : ∀ c, number c + fund (turn stage now c.1 c.2).left ≤ fund c) (n : Nat) (c : Tracker × σ) :
    tally stage now number n c ≤ fund c := by
  induction n generalizing c with
  | zero => exact Nat.zero_le _
  | succ n ih =>
      have hpaid := h c
      rw [tally]
      cases hturn : turn stage now c.1 c.2 with
      | ended status t s =>
          dsimp only
          omega
      | more t s =>
          rw [hturn] at hpaid
          have hrest : tally stage now number n (t, s) ≤ fund (t, s) := ih (t, s)
          exact Nat.le_trans (Nat.add_le_add_left hrest _) hpaid

/-! ## Ticks that end -/

section

variable {δ : Type} {does : Tracker × σ → List δ} {t : Tracker} {s : σ} {ds : List δ}
  {r : TickStatus × Tracker × σ}

/-- A tick that ends, with what its turns do: `does` tells it of the tracker and the state before a
turn. -/
inductive RunsDoing (stage : Stage σ) (now : Nat) (does : Tracker × σ → List δ) :
    Tracker → σ → List δ → TickStatus × Tracker × σ → Prop
  | ended {t t' : Tracker} {s s' : σ} {status : TickStatus}
      (hturn : turn stage now t s = .ended status t' s') :
      RunsDoing stage now does t s (does (t, s)) (status, t', s')
  | more {t t' : Tracker} {s s' : σ} {ds : List δ} {r : TickStatus × Tracker × σ}
      (hturn : turn stage now t s = .more t' s')
      (hrest : RunsDoing stage now does t' s' ds r) :
      RunsDoing stage now does t s (does (t, s) ++ ds) r

theorem RunsDoing.runs (h : RunsDoing stage now does t s ds r) : Runs stage now t s r := by
  induction h with
  | ended hturn => exact .ended hturn
  | more hturn _ ih => exact .more hturn ih

theorem Runs.exists_doing (does : Tracker × σ → List δ) (h : Runs stage now t s r) :
    ∃ ds, RunsDoing stage now does t s ds r := by
  induction h with
  | ended hturn => exact ⟨_, .ended hturn⟩
  | more hturn _ ih =>
      obtain ⟨ds, hrest⟩ := ih
      exact ⟨_, .more hturn hrest⟩

/-- What every turn does to the tracker and the state, with what it does besides, its tick does. -/
theorem RunsDoing.relates_moments {R : List δ → Tracker × σ → Tracker × σ → Prop}
    (htrans : ∀ {ds ds' c c' c''}, R ds c c' → R ds' c' c'' → R (ds ++ ds') c c'')
    (hturn : ∀ c, R (does c) c (turn stage now c.1 c.2).left)
    (h : RunsDoing stage now does t s ds r) : R ds (t, s) r.2 := by
  induction h with
  | @ended t t' s s' status hended =>
      have hlast := hturn (t, s)
      rwa [hended] at hlast
  | @more t t' s s' ds r hmore _ ih =>
      have hfirst := hturn (t, s)
      rw [hmore] at hfirst
      exact htrans hfirst ih

/-- What every turn does to the state, with what it does besides, its tick does. -/
theorem RunsDoing.relates {R : List δ → σ → σ → Prop}
    (htrans : ∀ {ds ds' s s' s''}, R ds s s' → R ds' s' s'' → R (ds ++ ds') s s'')
    (hturn : ∀ c, R (does c) c.2 (turn stage now c.1 c.2).left.2)
    (h : RunsDoing stage now does t s ds r) : R ds s r.2.2 :=
  h.relates_moments (R := fun ds c c' => R ds c.2 c'.2) htrans hturn

end

end Tracker

end Cutscene
