import Mathlib.Order.Monotone.Basic
import Mathlib.Tactic.IntervalCases
import Cutscene.Proofs.Stage.Hosts
import Cutscene.Proofs.Tracker.Opacity
import Cutscene.Proofs.Tracker.Patience
import Cutscene.Proofs.Tracker.Stints

/-!
# Fades

A fade goes on until its time is over, or until the overlay has the opacity of the end, whichever
is first. The overlay has it early if it was so when the fade was entered, but also if a turn of the
fade itself has shown it: the opacity is rounded to one of 255 steps, and for about the last half
step that is the end already. So a fade lasts its time unless a turn comes in the last part of it,
in which case the next turn is the last, however early (`fade_ends`).

That the overlay shows what the turn before has shown is the invariant of a fade's stint
(`Stint.exists_fading`).
-/

namespace Cutscene

/-- The operation that fades out to an opaque overlay or in to a transparent one. -/
def fade (out : Bool) (duration : UInt64) : Operation :=
  if out then .fadeOut duration else .fadeIn duration

/-- The overlay of a stage is what it was last set to, and so is the lock on movement. -/
structure Stage.ShowsFades {σ : Type} (stage : Stage σ) (locked : σ → Bool) : Prop where
  overlay_note : ∀ line s, stage.overlay (stage.note line s) = stage.overlay s
  overlay_setOverlay : ∀ colour s, stage.overlay (stage.setOverlay colour s) = colour
  overlay_lockMovement : ∀ b s, stage.overlay (stage.lockMovement b s) = stage.overlay s
  locked_note : ∀ line s, locked (stage.note line s) = locked s
  locked_setOverlay : ∀ colour s, locked (stage.setOverlay colour s) = locked s
  locked_lockMovement : ∀ b s, locked (stage.lockMovement b s) = b

theorem World.stage_showsFades (load : String → Reported Scene) :
    (stage load).ShowsFades (·.movementLocked) where
  overlay_note _ _ := rfl
  overlay_setOverlay _ _ := rfl
  overlay_lockMovement _ _ := rfl
  locked_note _ _ := rfl
  locked_setOverlay _ _ := rfl
  locked_lockMovement _ _ := rfl

theorem Rehearsal.stage_showsFades : stage.ShowsFades (·.locked) where
  overlay_note _ _ := rfl
  overlay_setOverlay _ _ := rfl
  overlay_lockMovement _ _ := rfl
  locked_note _ _ := rfl
  locked_setOverlay _ _ := rfl
  locked_lockMovement _ _ := rfl

/-! ## One turn of a fade -/

/-- The frame is in a fade that began at some time: it enters the fade, or it has kept the time. -/
inductive Frame.Fades (f : Frame) (now : ℕ) : ℕ → Prop
  | enters (h : f.justEntered = true) : Fades f now now
  | goesOn {started : ℕ} (h : f.justEntered = false) (hkept : f.progress = .fade started) :
      Fades f now started

theorem millis_bounds {duration : UInt64} (h : 0 < duration) :
    10 ^ 6 ≤ millis duration ∧ millis duration ≤ 2 ^ 64 * 10 ^ 6 := by
  have hpos : 0 < duration.toNat := UInt64.lt_iff_toNat_lt.1 h
  have hlt := duration.toNat_lt
  unfold millis nanosPerMilli
  omega

section

variable {σ : Type} {stage : Stage σ} {locked : σ → Bool} {out : Bool} {duration : UInt64}

namespace Frame.Fades

variable {f : Frame} {below : List Frame} {now started : ℕ}

/-- A fade goes on from where it began. If it is entered, movement is locked first. -/
theorem fadeStep_eq (h : f.Fades now started) (stage : Stage σ) (out : Bool) (total : ℕ) (s : σ) :
    let begun := if f.justEntered then stage.lockMovement true s else s
    let colour := stage.overlay begun
    fadeStep stage out total now f.justEntered f.progress s =
      if now - started < total ∧ colour.alpha ≠ fadeTarget out then
        (.suspend (.fade started),
          stage.setOverlay (colour.withAlpha (fadeAlpha out total (now - started))) begun)
      else (.next, stage.lockMovement false
        (stage.setOverlay (colour.withAlpha (fadeTarget out)) begun)) := by
  unfold fadeStep
  cases h with
  | enters hentered =>
      rw [hentered]
      rfl
  | goesOn hentered hkept =>
      rw [hentered, hkept]
      rfl

theorem exists_perform_eq (f : Frame) (stage : Stage σ) (now : ℕ) (out : Bool) (duration : UInt64)
    (voices : Voices) (s : σ) :
    ∃ line, f.perform stage now (fade out duration) voices s = .plain voices
      (fadeStep stage out (millis duration) now f.justEntered f.progress (stage.note line s)) := by
  cases out with
  | true => exact ⟨_, rfl⟩
  | false => exact ⟨_, rfl⟩

/-- A turn of a fade shows the opacity of the time that has passed and ends the tick. If no time is
left, or the overlay has the opacity of the end, the turn shows that and the fade is done. -/
theorem exists_turn_eq (h : f.Fades now started) (hshows : stage.ShowsFades locked)
    {c : Tracker × σ} (hsettle : Tracker.settle c.1.frames = f :: below)
    (hop : f.operation? = some (fade out duration)) :
    let colour := stage.overlay c.2
    ∃ s, if now - started < millis duration ∧ colour.alpha ≠ fadeTarget out then
        Tracker.turn stage now c.1 c.2 =
          .ended .suspended ⟨f.suspend (.fade started) :: below, c.1.voices⟩ s ∧
        stage.overlay s = colour.withAlpha (fadeAlpha out (millis duration) (now - started)) ∧
        locked s = (f.justEntered || locked c.2)
      else
        Tracker.turn stage now c.1 c.2 = .more ⟨f.advance :: below, c.1.voices⟩ s ∧
        stage.overlay s = colour.withAlpha (fadeTarget out) ∧ locked s = false := by
  intro colour
  obtain ⟨line, hperform⟩ := exists_perform_eq f stage now out duration c.1.voices c.2
  have hstep := h.fadeStep_eq stage out (millis duration) (stage.note line c.2)
  generalize hbegun : (if f.justEntered then stage.lockMovement true (stage.note line c.2)
    else stage.note line c.2) = begun at hstep
  have hcolour : stage.overlay begun = colour := by
    rw [← hbegun, apply_ite stage.overlay, hshows.overlay_lockMovement, ite_self,
      hshows.overlay_note]
  have hlocked : locked begun = (f.justEntered || locked c.2) := by
    rw [← hbegun, apply_ite locked, hshows.locked_lockMovement, hshows.locked_note]
    cases f.justEntered <;> rfl
  rw [Tracker.turn_eq_follow hsettle hop, hperform, hstep, hcolour]
  by_cases hmore : now - started < millis duration ∧ colour.alpha ≠ fadeTarget out
  · simp only [if_pos hmore]
    exact ⟨_, rfl, hshows.overlay_setOverlay _ _, (hshows.locked_setOverlay _ _).trans hlocked⟩
  · simp only [if_neg hmore]
    exact ⟨_, rfl, (hshows.overlay_lockMovement _ _).trans (hshows.overlay_setOverlay _ _),
      hshows.locked_lockMovement _ _⟩

end Frame.Fades

/-! ## The turns of a fade -/

namespace Tracker

/-- What happens between the ticks leaves the overlay as it is. -/
def LeavesOverlay (stage : Stage σ) (c c' : Tracker × σ) : Prop :=
  stage.overlay c'.2 = stage.overlay c.2

/-- The opacity that the overlay has when turn `i` of a fade begins: that of its colour at first,
and then what the turn before has shown. -/
def opacityAt (out : Bool) (total : ℕ) (colour : Colour) (time : ℕ → ℕ) : ℕ → UInt8
  | 0 => colour.alpha
  | i + 1 => fadeAlpha out total (time i - time 0)

variable {time : ℕ → ℕ} {place : ℕ → Tracker × σ} {n i : ℕ}

/-- At each turn of a fade the frame keeps when it began, and the overlay shows what the turn before
has shown. -/
theorem Stint.exists_fading (hshows : stage.ShowsFades locked)
    (h : Stint stage (LeavesOverlay stage) (fade out duration) time place n) (hi : i ≤ n) :
    let colour := stage.overlay (place 0).2
    ∃ f below, settle (place i).1.frames = f :: below ∧
      f.operation? = some (fade out duration) ∧ f.Fades (time i) (time 0) ∧
      f.justEntered = (i == 0) ∧ stage.overlay (place i).2 =
        colour.withAlpha (opacityAt out (millis duration) colour time i) := by
  intro colour
  induction i with
  | zero =>
      obtain ⟨f, below, hsettle, hop, hentered⟩ := h.enters
      exact ⟨f, below, hsettle, hop, .enters hentered, hentered, rfl⟩
  | succ i ih =>
      obtain ⟨f, below, hsettle, hop, hfades, -, hoverlay⟩ := ih (Nat.le_of_succ_le hi)
      obtain ⟨s, hturn⟩ := hfades.exists_turn_eq hshows hsettle hop
      split at hturn
      · obtain ⟨hended, hshown, -⟩ := hturn
        obtain ⟨⟨below', hsettle'⟩, hleaves⟩ := h.next hi hended
        refine ⟨_, below', hsettle', hop, .goesOn rfl rfl, rfl, ?_⟩
        rw [hleaves.trans hshown, hoverlay]
        rfl
      · -- a fade that is done lets the tick go on, so this turn would be the last
        exact absurd hturn.1 (h.not_more hi _ s)

/-- A turn of a fade goes on with it as long as time is left and the overlay has not the opacity of
the end. -/
theorem Stint.exists_fade_turn (hshows : stage.ShowsFades locked) (hduration : 0 < duration)
    (h : Stint stage (LeavesOverlay stage) (fade out duration) time place n) (hi : i ≤ n) :
    let total := millis duration
    let colour := stage.overlay (place 0).2
    let opacity := opacityAt out total colour time
    ∃ f below s, settle (place i).1.frames = f :: below ∧
      if time i < time 0 + total ∧ opacity i ≠ fadeTarget out then
        turn stage (time i) (place i).1 (place i).2 = .ended .suspended
          ⟨f.suspend (.fade (time 0)) :: below, (place i).1.voices⟩ s ∧
        stage.overlay s = colour.withAlpha (opacity (i + 1)) ∧
        locked s = (i == 0 || locked (place i).2)
      else
        turn stage (time i) (place i).1 (place i).2 =
          .more ⟨f.advance :: below, (place i).1.voices⟩ s ∧
        stage.overlay s = colour.withAlpha (fadeTarget out) ∧ locked s = false := by
  intro total colour opacity
  obtain ⟨f, below, hsettle, hop, hfades, hentered, hoverlay⟩ := h.exists_fading hshows hi
  obtain ⟨s, hturn⟩ := hfades.exists_turn_eq hshows hsettle hop
  obtain ⟨htotal, -⟩ := millis_bounds hduration
  have htime : time i - time 0 < millis duration ↔ time i < time 0 + millis duration := by omega
  rw [hoverlay, hentered] at hturn
  simp only [htime] at hturn
  exact ⟨f, below, s, hsettle, hturn⟩

/-- A turn completes a fade if its time is over or the overlay has the opacity of the end. -/
theorem Stint.fade_completes_iff (hshows : stage.ShowsFades locked) (hduration : 0 < duration)
    (h : Stint stage (LeavesOverlay stage) (fade out duration) time place n) (hi : i ≤ n) :
    Completes stage (time i) (place i) ↔ ¬(time i < time 0 + millis duration ∧
      opacityAt out (millis duration) (stage.overlay (place 0).2) time i ≠ fadeTarget out) := by
  obtain ⟨f, below, s, hsettle, hturn⟩ := h.exists_fade_turn hshows hduration hi
  split at hturn
  case isTrue hmore =>
    have hsuspends : Suspends stage (time i) (place i) (.fade (time 0)) :=
      ⟨f, below, s, hsettle, hturn.1⟩
    exact iff_of_false hsuspends.not_completes (not_not.2 hmore)
  case isFalse hdone => exact iff_of_true ⟨f, below, s, hsettle, hturn.1⟩ hdone

/-- While a fade goes on, its time is not over and the overlay has not the opacity of the end. -/
theorem Stint.fade_goesOn (hshows : stage.ShowsFades locked) (hduration : 0 < duration)
    (h : Stint stage (LeavesOverlay stage) (fade out duration) time place n) (hi : i < n) :
    time i < time 0 + millis duration ∧
      opacityAt out (millis duration) (stage.overlay (place 0).2) time i ≠ fadeTarget out :=
  not_not.1 (mt (h.fade_completes_iff hshows hduration hi.le).2 (h.not_completes hi))

/-- What a fade shows while it goes on is the share of its time. -/
theorem Stint.opacity_near (hshows : stage.ShowsFades locked) (hduration : 0 < duration)
    (h : Stint stage (LeavesOverlay stage) (fade out duration) time place n) (hi : i < n)
    (colour : Colour) :
    |((opacityAt out (millis duration) colour time (i + 1)).toNat : ℚ) -
      255 * fadeShare out (millis duration) (time i - time 0)| ≤ 1 / 2 + 1 / 1024 := by
  obtain ⟨hlow, hhigh⟩ := millis_bounds hduration
  obtain ⟨htime, -⟩ := h.fade_goesOn hshows hduration hi
  exact fadeAlpha_near hlow hhigh (by omega) out

/-- The turn after one that comes in the last part of a fade completes it, whenever it comes. -/
theorem Stint.completes_of_close (hshows : stage.ShowsFades locked) (hduration : 0 < duration)
    (h : Stint stage (LeavesOverlay stage) (fade out duration) time place n) (hi : i < n)
    (hclose : 511 * (time 0 + millis duration - time i) ≤ millis duration) :
    i + 1 = n ∧ Completes stage (time (i + 1)) (place (i + 1)) := by
  obtain ⟨hlow, hhigh⟩ := millis_bounds hduration
  obtain ⟨htime, -⟩ := h.fade_goesOn hshows hduration hi
  have hshown : opacityAt out (millis duration) (stage.overlay (place 0).2) time (i + 1) =
      fadeTarget out := fadeAlpha_eq hlow hhigh (by omega) out (by omega)
  have hcompletes : Completes stage (time (i + 1)) (place (i + 1)) :=
    (h.fade_completes_iff hshows hduration hi).2 fun hmore => hmore.2 hshown
  refine ⟨?_, hcompletes⟩
  by_contra hne
  exact h.not_completes (Nat.lt_of_le_of_ne hi hne) hcompletes

/-- A turn whose predecessor does not come in the last part of a fade completes it if its time is
over. -/
theorem Stint.fade_completes_iff_of_far (hshows : stage.ShowsFades locked)
    (hduration : 0 < duration)
    (h : Stint stage (LeavesOverlay stage) (fade out duration) time place n) (hi : i ≤ n)
    (hstart : (stage.overlay (place 0).2).alpha ≠ fadeTarget out)
    (hfar : ∀ j, j + 1 = i → millis duration ≤ 509 * (time 0 + millis duration - time j)) :
    Completes stage (time i) (place i) ↔ time 0 + millis duration ≤ time i := by
  obtain ⟨hlow, hhigh⟩ := millis_bounds hduration
  have hopacity : opacityAt out (millis duration) (stage.overlay (place 0).2) time i ≠
      fadeTarget out := by
    cases i with
    | zero => exact hstart
    | succ j =>
        have hleft := hfar j rfl
        exact fadeAlpha_ne hlow hhigh (by omega) out (by omega)
  rw [h.fade_completes_iff hshows hduration hi, ← Nat.not_lt]
  exact not_congr (and_iff_left hopacity)

/-- A fade goes on as long as time is left and the overlay has not the opacity of the end, on any
stage that shows what it is told and whatever else happens between its turns. It locks movement when
it is entered and shows the share of its time, rounded, while it goes on; in the end it shows the
opacity of the end, exactly, and movement is free. The other parts of the colour never change.

What the fade shows is the opacity of the end for the last part of its time. So it lasts its time if
no turn comes in that part, and a turn that does is followed by the last, however early. -/
theorem fade_ends (hshows : stage.ShowsFades locked) (hduration : 0 < duration)
    (h : Stint stage (LeavesOverlay stage) (fade out duration) time place n) :
    let total := millis duration
    let colour := stage.overlay (place 0).2
    let opacity := opacityAt out total colour time
    (∀ i ≤ n, ∃ f below s, settle (place i).1.frames = f :: below ∧
      if time i < time 0 + total ∧ opacity i ≠ fadeTarget out then
        turn stage (time i) (place i).1 (place i).2 = .ended .suspended
          ⟨f.suspend (.fade (time 0)) :: below, (place i).1.voices⟩ s ∧
        stage.overlay s = colour.withAlpha (opacity (i + 1)) ∧
        locked s = (i == 0 || locked (place i).2)
      else
        turn stage (time i) (place i).1 (place i).2 =
          .more ⟨f.advance :: below, (place i).1.voices⟩ s ∧
        stage.overlay s = colour.withAlpha (fadeTarget out) ∧ locked s = false) ∧
    (∀ i < n, |((opacity (i + 1)).toNat : ℚ) - 255 * fadeShare out total (time i - time 0)| ≤
      1 / 2 + 1 / 1024) ∧
    (∀ i ≤ n, colour.alpha ≠ fadeTarget out →
      (∀ j, j + 1 = i → total ≤ 509 * (time 0 + total - time j)) →
      (Completes stage (time i) (place i) ↔ time 0 + total ≤ time i)) ∧
    (∀ i < n, 511 * (time 0 + total - time i) ≤ total →
      i + 1 = n ∧ Completes stage (time (i + 1)) (place (i + 1))) :=
  ⟨fun _ hi => h.exists_fade_turn hshows hduration hi,
    fun _ hi => h.opacity_near hshows hduration hi _,
    fun _ hi => h.fade_completes_iff_of_far hshows hduration hi,
    fun _ hi => h.completes_of_close hshows hduration hi⟩

/-- Times of which the second comes shortly before a fade of a second is over and the third sooner
than that, too. -/
def dimTime (i : ℕ) : ℕ := [0, 999000000, 999500000].getD i 1000000000

/-- The turns at those times of a fade in from an opaque overlay. -/
def dimming : ℕ → Tracker × Rehearsal :=
  onward Rehearsal.stage dimTime (fun _ => id)
    (⟨[.start (.make 0 (some "dim") [fade false 1000])], .silent⟩,
      { Rehearsal.opening .empty .empty with overlay := ⟨0, 0, 0, 255⟩ })

theorem stint_dimming :
    Stint Rehearsal.stage (LeavesOverlay Rehearsal.stage) (fade false 1000) dimTime dimming 2 := by
  refine stint_onward (fun _ _ => rfl) rfl rfl rfl fun i hi => ?_
  interval_cases i <;> exact ⟨_, _, rfl⟩

/-- The third turn of that fade is the last, half a millisecond early. -/
theorem fade_cut_short :
    Monotone dimTime ∧ (Rehearsal.stage.overlay (dimming 0).2).alpha ≠ fadeTarget false ∧
      Stint Rehearsal.stage (LeavesOverlay Rehearsal.stage) (fade false 1000) dimTime dimming 2 ∧
      dimTime 2 < dimTime 0 + millis 1000 ∧ Completes Rehearsal.stage (dimTime 2) (dimming 2) := by
  have hmonotone : Monotone dimTime := by
    refine monotone_nat_of_le_succ fun i => ?_
    rcases i with _ | _ | _ | i
    · decide
    · decide
    · decide
    · exact le_rfl
  have hshown : opacityAt false (millis 1000) (Rehearsal.stage.overlay (dimming 0).2) dimTime 2 =
      fadeTarget false := by decide +kernel
  exact ⟨hmonotone, by decide, stint_dimming, by decide,
    (stint_dimming.fade_completes_iff Rehearsal.stage_showsFades (by decide) le_rfl).2
      fun hmore => hmore.2 hshown⟩

theorem fade_ends_dimming :
    (Completes Rehearsal.stage (dimTime 1) (dimming 1) ↔ dimTime 0 + millis 1000 ≤ dimTime 1) ∧
    Completes Rehearsal.stage (dimTime 2) (dimming 2) := by
  obtain ⟨-, -, hfar, hclose⟩ :=
    fade_ends Rehearsal.stage_showsFades (by decide) stint_dimming
  refine ⟨hfar 1 (by decide) (by decide) fun j hj => ?_, (hclose 1 (by decide) (by decide)).2⟩
  obtain rfl : j = 0 := by omega
  decide

end Tracker

end

end Cutscene
