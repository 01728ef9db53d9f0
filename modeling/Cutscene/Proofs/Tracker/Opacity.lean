import Mathlib.Tactic.Linarith
import Cutscene.Proofs.Numeric.Rounding
import Cutscene.Tracker.Interpreter

/-!
# The opacity of a fade

A fade computes how opaque the overlay is in numbers of the 32-bit format: two durations in seconds,
their quotient, the rest to one, and that times 255. Every operation is off by one rounding, and all
of them together by less than a thousandth of a step of the opacity (`fadeAlpha_near`). So the
opacity is the share of the time, rounded to a step, and it is that of the end for about the last
half step of the fade: when no more than 1 part in 511 of the time is left (`fadeAlpha_eq`), and not
while 1 part in 509 is (`fadeAlpha_ne`).

In the bounds, `1 / 2 ^ 23` is a little more than the error of one rounding.
-/

namespace Cutscene

open Numeric Binary

/-- The level between zero and one that a fade has when some of its time has passed. -/
def fadeLevel (out : Bool) (duration elapsed : Nat) : Single :=
  let t := seconds elapsed / seconds duration
  if out then t else .ofNat 1 - t

/-- The opacity that a fade shows when some of its time has passed. -/
def fadeAlpha (out : Bool) (duration elapsed : Nat) : UInt8 :=
  alphaOf (fadeLevel out duration elapsed)

/-- How much of the picture a fade should cover when some of its time has passed. -/
def fadeShare (out : Bool) (duration elapsed : Nat) : ℚ :=
  if out then elapsed / duration else 1 - elapsed / duration

/-! ## Seconds -/

theorem value_ofNat_billion :
    (ofNat 1000000000 : Single).isFinite = true ∧ (ofNat 1000000000 : Single).value = 10 ^ 9 := by
  have hcanonical : Format.single.Canonical 15625000 6 := by decide
  obtain ⟨hfinite, hvalue⟩ := value_ofNat (n := 1000000000) hcanonical (by norm_num)
  exact ⟨hfinite, hvalue.trans (by norm_num)⟩

theorem split_seconds (nanos : Nat) :
    (nanos : ℚ) / 10 ^ 9 = (nanos / 1000000000 : Nat) + (nanos % 1000000000 : Nat) / 10 ^ 9 := by
  have hdivision : (nanos : ℚ) =
      1000000000 * (nanos / 1000000000 : Nat) + (nanos % 1000000000 : Nat) := by
    exact_mod_cast (Nat.div_add_mod nanos 1000000000).symm
  rw [hdivision]
  ring

section

variable {bound : ℚ} (hlow : 1 / 1000 ≤ bound) (hhigh : bound ≤ 2 ^ 64)

include hlow hhigh

/-- A part of a second is off by two roundings. -/
theorem fraction_near {nanos : Nat} (hnanos : nanos / 10 ^ 9 ≤ bound) :
    (ofNat nanos / ofNat 1000000000 : Single).isFinite = true ∧
      |(ofNat nanos / ofNat 1000000000 : Single).value - nanos / 10 ^ 9| ≤
        3 * bound / 2 ^ 23 := by
  obtain ⟨hbillion, hbillion_value⟩ := value_ofNat_billion
  have hnanos_le : |(nanos : ℚ)| ≤ 10 ^ 9 * bound := by
    rw [abs_of_nonneg (Nat.cast_nonneg nanos)]
    linarith
  obtain ⟨hx, hx_near⟩ := single_near (ofNat_isNear Format.single_proper) hnanos_le (by linarith)
    (by linarith)
  have hquotient_le : |(ofNat nanos : Single).value / (ofNat 1000000000 : Single).value| ≤
      2 * bound := by
    rw [hbillion_value, abs_le, le_div_iff₀ (by norm_num), div_le_iff₀ (by norm_num)]
    rw [abs_le] at hx_near hnanos_le
    constructor <;> linarith
  obtain ⟨hquotient, hquotient_near⟩ := single_near
    (div_isNear Format.single_proper hx hbillion (by rw [hbillion_value]; norm_num)) hquotient_le
    (by linarith) (by linarith)
  refine ⟨hquotient, ?_⟩
  rw [hbillion_value] at hquotient_near
  rw [abs_le] at hx_near hquotient_near ⊢
  constructor <;> linarith

/-- A duration in seconds is off by four roundings, each of a number up to twice the duration. -/
theorem seconds_near {nanos : Nat} (hnanos : nanos / 10 ^ 9 ≤ bound) :
    (seconds nanos).isFinite = true ∧
      |(seconds nanos).value - nanos / 10 ^ 9| ≤ 6 * bound / 2 ^ 23 := by
  rw [split_seconds] at hnanos ⊢
  unfold seconds
  generalize nanos / 1000000000 = whole at *
  generalize nanos % 1000000000 = rest at *
  have hwhole : (0 : ℚ) ≤ whole := Nat.cast_nonneg whole
  have hrest : (0 : ℚ) ≤ rest / 10 ^ 9 := by positivity
  have hwhole_le : |(whole : ℚ)| ≤ bound := by
    rw [abs_of_nonneg hwhole]
    linarith
  obtain ⟨hx, hx_near⟩ := single_near (ofNat_isNear Format.single_proper) hwhole_le hlow
    (by linarith)
  obtain ⟨hy, hy_near⟩ := fraction_near hlow hhigh (by linarith : (rest : ℚ) / 10 ^ 9 ≤ bound)
  rw [abs_le] at hx_near hy_near
  have hsum_le : |(ofNat whole : Single).value +
      (ofNat rest / ofNat 1000000000 : Single).value| ≤ 2 * bound := by
    rw [abs_le]
    constructor <;> linarith
  obtain ⟨hsum, hsum_near⟩ := single_near (add_isNear Format.single_proper hx hy) hsum_le
    (by linarith) (by linarith)
  refine ⟨hsum, ?_⟩
  rw [abs_le] at hsum_near ⊢
  constructor <;> linarith

end

/-! ## Levels -/

/-- A quotient of two numbers that are off by a few roundings. -/
theorem abs_div_sub_le {x y share : ℚ} (hshare : 0 ≤ share ∧ share ≤ 1)
    (hx : |x - share| ≤ 6 / 2 ^ 23) (hy : |y - 1| ≤ 6 / 2 ^ 23) :
    0 < y ∧ |x / y - share| ≤ 13 / 2 ^ 23 := by
  rw [abs_le] at hx hy
  have hpos : 0 < y := by linarith
  refine ⟨hpos, ?_⟩
  rw [abs_le, neg_le_sub_iff_le_add, sub_le_iff_le_add, div_le_iff₀ hpos, ← sub_le_iff_le_add,
    le_div_iff₀ hpos]
  constructor <;> nlinarith

section

variable {duration elapsed : Nat}

theorem ratio_bounds (hle : elapsed ≤ duration) :
    (0 : ℚ) ≤ elapsed / duration ∧ (elapsed : ℚ) / duration ≤ 1 :=
  ⟨by positivity, div_le_one_of_le₀ (by exact_mod_cast hle) (Nat.cast_nonneg _)⟩

theorem fadeShare_bounds (out : Bool) (hle : elapsed ≤ duration) :
    0 ≤ fadeShare out duration elapsed ∧ fadeShare out duration elapsed ≤ 1 := by
  obtain ⟨hnonneg, hone⟩ := ratio_bounds hle
  cases out with
  | true => exact ⟨hnonneg, hone⟩
  | false => exact ⟨sub_nonneg.2 hone, sub_le_self 1 hnonneg⟩

theorem value_ofNat_one : (ofNat 1 : Single).isFinite = true ∧ (ofNat 1 : Single).value = 1 := by
  have hcanonical : Format.single.Canonical 8388608 (-23) := by decide
  obtain ⟨hfinite, hvalue⟩ := value_ofNat (n := 1) hcanonical (by norm_num)
  exact ⟨hfinite, hvalue.trans Nat.cast_one⟩

section

variable (hlow : 10 ^ 6 ≤ duration) (hhigh : duration ≤ 2 ^ 64 * 10 ^ 6) (hle : elapsed ≤ duration)

include hlow hhigh hle

/-- The quotient of two durations in seconds, off by their errors and one more rounding. -/
theorem seconds_div_near :
    (seconds elapsed / seconds duration).isFinite = true ∧
      |(seconds elapsed / seconds duration).value - elapsed / duration| ≤ 15 / 2 ^ 23 := by
  have hlow' : (1 : ℚ) / 1000 ≤ duration / 10 ^ 9 := by
    rw [div_le_div_iff₀ (by norm_num) (by norm_num)]
    exact_mod_cast (by omega : 1 * 10 ^ 9 ≤ duration * 1000)
  have hhigh' : (duration / 10 ^ 9 : ℚ) ≤ 2 ^ 64 := by
    rw [div_le_iff₀ (by norm_num)]
    exact_mod_cast (by omega : duration ≤ 2 ^ 64 * 10 ^ 9)
  have hle' : (elapsed / 10 ^ 9 : ℚ) ≤ duration / 10 ^ 9 := by gcongr
  have hpos : (0 : ℚ) < duration / 10 ^ 9 := by linarith
  obtain ⟨hx, hx_near⟩ := seconds_near hlow' hhigh' hle'
  obtain ⟨hy, hy_near⟩ := seconds_near hlow' hhigh' le_rfl
  -- in units of the whole duration the errors are numbers
  have hscale : ∀ {q r : ℚ}, |q - r| ≤ 6 * (duration / 10 ^ 9) / 2 ^ 23 →
      |q / (duration / 10 ^ 9) - r / (duration / 10 ^ 9)| ≤ 6 / 2 ^ 23 := by
    intro q r h
    rw [← sub_div, abs_div, abs_of_pos hpos, div_le_iff₀ hpos]
    linarith
  have hx_near' := hscale hx_near
  have hy_near' := hscale hy_near
  rw [div_div_div_cancel_right₀ (by norm_num)] at hx_near'
  rw [div_self hpos.ne'] at hy_near'
  have hbounds := ratio_bounds hle
  obtain ⟨hy_pos, hquotient⟩ := abs_div_sub_le hbounds hx_near' hy_near'
  rw [div_div_div_cancel_right₀ hpos.ne', abs_le] at hquotient
  have hy_ne : (seconds duration).value ≠ 0 := ((div_pos_iff_of_pos_right hpos).1 hy_pos).ne'
  have hquotient_le : |(seconds elapsed).value / (seconds duration).value| ≤ 2 := by
    rw [abs_le]
    constructor <;> linarith
  obtain ⟨ht, ht_near⟩ := single_near (div_isNear Format.single_proper hx hy hy_ne) hquotient_le
    (by norm_num) (by norm_num)
  refine ⟨ht, ?_⟩
  rw [abs_le] at ht_near ⊢
  constructor <;> linarith

/-- The level of a fade is its share: fading in takes the rest to one, with one more rounding. -/
theorem fadeLevel_near (out : Bool) :
    (fadeLevel out duration elapsed).isFinite = true ∧
      |(fadeLevel out duration elapsed).value - fadeShare out duration elapsed| ≤ 17 / 2 ^ 23 := by
  obtain ⟨ht, ht_near⟩ := seconds_div_near hlow hhigh hle
  cases out with
  | true => exact ⟨ht, ht_near.trans (by norm_num)⟩
  | false =>
      obtain ⟨hone, hone_value⟩ := value_ofNat_one
      have hbounds := ratio_bounds hle
      rw [abs_le] at ht_near
      have hrest_le : |(ofNat 1 : Single).value - (seconds elapsed / seconds duration).value| ≤
          2 := by
        rw [hone_value, abs_le]
        constructor <;> linarith
      obtain ⟨hlevel, hlevel_near⟩ := single_near (sub_isNear Format.single_proper hone ht) hrest_le
        (by norm_num) (by norm_num)
      refine ⟨hlevel, ?_⟩
      change |(ofNat 1 - seconds elapsed / seconds duration : Single).value -
        (1 - elapsed / duration)| ≤ _
      rw [hone_value] at hlevel_near
      rw [abs_le] at hlevel_near ⊢
      constructor <;> linarith

end

/-! ## Steps of opacity -/

theorem value_ofNat_255 :
    (ofNat 255 : Single).isFinite = true ∧ (ofNat 255 : Single).value = 255 := by
  have hcanonical : Format.single.Canonical 16711680 (-16) := by decide
  obtain ⟨hfinite, hvalue⟩ := value_ofNat (n := 255) hcanonical (by norm_num)
  exact ⟨hfinite, hvalue.trans (by norm_num)⟩

/-- A number that is cut off at two ends comes no farther from what lies between them. -/
theorem abs_min_toNat_sub_le {n : Int} {x err : ℚ} (hx : 0 ≤ x ∧ x ≤ 255) (h : |n - x| ≤ err) :
    |((min 255 n.toNat : Nat) : ℚ) - x| ≤ err := by
  rw [abs_le] at h ⊢
  rcases lt_or_ge n 0 with hneg | hpos
  · have hneg' : (n : ℚ) < 0 := by exact_mod_cast hneg
    rw [Int.toNat_of_nonpos hneg.le, Nat.min_zero, Nat.cast_zero]
    constructor <;> linarith
  · obtain ⟨m, rfl⟩ := Int.eq_ofNat_of_zero_le hpos
    rw [Int.toNat_natCast]
    rw [Int.cast_natCast] at h
    rcases le_or_gt m 255 with hle | hgt
    · rw [Nat.min_eq_right hle]
      exact h
    · have hgt' : (255 : ℚ) < m := by exact_mod_cast hgt
      rw [Nat.min_eq_left hgt.le]
      push_cast
      constructor <;> linarith

/-- The opacity of a level is the level times 255, rounded. -/
theorem alphaOf_near {level : Single} {share : ℚ} (hshare : 0 ≤ share ∧ share ≤ 1)
    (hfinite : level.isFinite = true) (hlevel : |level.value - share| ≤ 17 / 2 ^ 23) :
    |((alphaOf level).toNat : ℚ) - 255 * share| ≤ 1 / 2 + 1 / 1024 := by
  obtain ⟨h255, h255_value⟩ := value_ofNat_255
  rw [abs_le] at hlevel
  have hproduct_le : |(ofNat 255 : Single).value * level.value| ≤ 512 := by
    rw [h255_value, abs_le]
    constructor <;> linarith
  obtain ⟨hproduct, hproduct_near⟩ := single_near (mul_isNear Format.single_proper h255 hfinite)
    hproduct_le (by norm_num) (by norm_num)
  obtain ⟨n, hn, hn_near⟩ := exists_roundAway hproduct
  have herror : |(n : ℚ) - 255 * share| ≤ 1 / 2 + 1 / 1024 := by
    rw [h255_value] at hproduct_near
    rw [abs_le] at hproduct_near hn_near ⊢
    constructor <;> linarith
  have hsmall : min 255 n.toNat < 256 := by omega
  have halpha : alphaOf level = UInt8.ofNat (min 255 n.toNat) := by
    unfold alphaOf
    rw [hn]
  rw [halpha, UInt8.toNat_ofNat', Nat.mod_eq_of_lt hsmall]
  refine abs_min_toNat_sub_le ⟨?_, ?_⟩ herror <;> linarith

/-- A fade has as much opacity to go as there is time left. -/
theorem abs_target_sub (out : Bool) (hpos : 0 < duration) (hle : elapsed ≤ duration) :
    |((fadeTarget out).toNat : ℚ) - 255 * fadeShare out duration elapsed| =
      255 * ((duration - elapsed : Nat) / duration) := by
  have hleft : (((duration - elapsed : Nat) : ℚ) / duration) = 1 - elapsed / duration := by
    rw [Nat.cast_sub hle, sub_div, div_self (by exact_mod_cast hpos.ne')]
  have hnonneg : (0 : ℚ) ≤ 1 - elapsed / duration := (fadeShare_bounds false hle).1
  rw [hleft]
  cases out with
  | true =>
      change |(255 : ℚ) - 255 * (elapsed / duration)| = _
      rw [abs_of_nonneg (by linarith)]
      ring
  | false =>
      change |(0 : ℚ) - 255 * (1 - elapsed / duration)| = _
      rw [zero_sub, abs_neg, abs_of_nonneg (by linarith)]

/-! ## The opacity of a fade and its end -/

section

variable (hlow : 10 ^ 6 ≤ duration) (hhigh : duration ≤ 2 ^ 64 * 10 ^ 6) (hle : elapsed ≤ duration)

include hlow hhigh hle

/-- The opacity of a fade is its share of the time, off by no more than a half and a little. -/
theorem fadeAlpha_near (out : Bool) :
    |((fadeAlpha out duration elapsed).toNat : ℚ) - 255 * fadeShare out duration elapsed| ≤
      1 / 2 + 1 / 1024 := by
  obtain ⟨hfinite, hnear⟩ := fadeLevel_near hlow hhigh hle out
  exact alphaOf_near (fadeShare_bounds out hle) hfinite hnear

/-- With no more than 1 part in 511 of the time left a fade shows the opacity of its end. -/
theorem fadeAlpha_eq (out : Bool) (hleft : 511 * (duration - elapsed) ≤ duration) :
    fadeAlpha out duration elapsed = fadeTarget out := by
  have hpos : 0 < duration := by omega
  have hpos' : (0 : ℚ) < duration := by exact_mod_cast hpos
  have hleft' : ((duration - elapsed : Nat) : ℚ) / duration ≤ 1 / 511 := by
    rw [div_le_div_iff₀ hpos' (by norm_num), mul_comm, one_mul]
    exact_mod_cast hleft
  have hnear := fadeAlpha_near hlow hhigh hle out
  have hend := abs_target_sub out hpos hle
  have hless : |((fadeAlpha out duration elapsed).toNat : ℚ) - (fadeTarget out).toNat| < 1 := by
    rw [abs_sub_comm] at hend
    refine (abs_sub_le _ (255 * fadeShare out duration elapsed) _).trans_lt ?_
    linarith
  have hsame : ((fadeAlpha out duration elapsed).toNat : Int) = (fadeTarget out).toNat := by
    rw [← sub_eq_zero, ← Int.abs_lt_one_iff]
    exact_mod_cast hless
  exact UInt8.toNat_inj.1 (by exact_mod_cast hsame)

/-- With 1 part in 509 of the time left a fade does not show the opacity of its end. -/
theorem fadeAlpha_ne (out : Bool) (hleft : duration ≤ 509 * (duration - elapsed)) :
    fadeAlpha out duration elapsed ≠ fadeTarget out := by
  intro hsame
  have hpos : 0 < duration := by omega
  have hpos' : (0 : ℚ) < duration := by exact_mod_cast hpos
  have hleft' : 1 / 509 ≤ ((duration - elapsed : Nat) : ℚ) / duration := by
    rw [div_le_div_iff₀ (by norm_num) hpos', one_mul, mul_comm]
    exact_mod_cast hleft
  have hnear := fadeAlpha_near hlow hhigh hle out
  rw [hsame, abs_target_sub out hpos hle] at hnear
  linarith

end

end

end Cutscene
