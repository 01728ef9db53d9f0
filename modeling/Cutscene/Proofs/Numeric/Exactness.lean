import Mathlib.Algebra.Order.Field.Power
import Mathlib.Data.Int.Log
import Mathlib.Data.Rat.Floor
import Mathlib.Tactic.Positivity
import Mathlib.Tactic.GCongr
import Mathlib.Tactic.FieldSimp
import Mathlib.Tactic.Ring
import Cutscene.Numeric.Binary

/-!
# Rounding is exact on what a format has

A number that a format can represent is its own rounding, whatever fraction or power of two it is
given by (`Binary.round_eq`, `Binary.ofDyadic_eq`). So a wider format holds every number of a
narrower one, and the way there and back changes nothing (`Binary.convert_convert`).

The rounding is computed in natural numbers. What it computes is said here of the rational number
`num / den`: the exponent of its last place is that of its leading bit, less the bits after it,
unless the format ends before (`unitExponent_eq`).
-/

namespace Cutscene.Numeric

/-- A quotient is compared with a power of two in natural numbers. -/
theorem quotient_lt_zpow_iff {num den : Nat} (hden : 0 < den) (e : Int) :
    (if 0 ≤ e then num < den <<< e.toNat else num <<< (-e).toNat < den) ↔
      (num / den : ℚ) < 2 ^ e := by
  have hden' : (0 : ℚ) < den := by exact_mod_cast hden
  rw [div_lt_iff₀ hden']
  split
  case isTrue he =>
    obtain ⟨n, rfl⟩ := Int.eq_ofNat_of_zero_le he
    rw [zpow_natCast, Int.toNat_natCast, Nat.shiftLeft_eq, mul_comm den]
    exact_mod_cast Iff.rfl
  case isFalse he =>
    obtain ⟨n, hn⟩ := Int.exists_eq_neg_ofNat (le_of_not_ge he)
    subst hn
    have hpow : (0 : ℚ) < 2 ^ n := by positivity
    rw [zpow_neg, zpow_natCast, inv_mul_eq_div, lt_div_iff₀ hpow, neg_neg, Int.toNat_natCast,
      Nat.shiftLeft_eq]
    exact_mod_cast Iff.rfl

/-- The leading bit of a quotient is where the leading bits of its parts say, or one place lower. -/
theorem quotient_bounds {num den : Nat} (hnum : 0 < num) (hden : 0 < den) :
    (2 : ℚ) ^ ((num.log2 : Int) - den.log2 - 1) ≤ num / den ∧
      (num / den : ℚ) < 2 ^ ((num.log2 : Int) - den.log2 + 1) := by
  have hden' : (0 : ℚ) < den := by exact_mod_cast hden
  have num_low : (2 : ℚ) ^ num.log2 ≤ num := by exact_mod_cast Nat.log2_self_le hnum.ne'
  have num_high : (num : ℚ) < 2 ^ (num.log2 + 1) := by exact_mod_cast Nat.lt_log2_self
  have den_low : (2 : ℚ) ^ den.log2 ≤ den := by exact_mod_cast Nat.log2_self_le hden.ne'
  have den_high : (den : ℚ) ≤ 2 ^ (den.log2 + 1) := by exact_mod_cast Nat.lt_log2_self.le
  constructor
  · calc (2 : ℚ) ^ ((num.log2 : Int) - den.log2 - 1)
        = 2 ^ num.log2 / 2 ^ (den.log2 + 1) := by
          rw [sub_sub, zpow_sub₀ two_ne_zero]; norm_cast
      _ ≤ num / den := by gcongr
  · calc (num / den : ℚ)
        < 2 ^ (num.log2 + 1) / 2 ^ den.log2 := by gcongr
      _ = 2 ^ ((num.log2 : Int) - den.log2 + 1) := by
          rw [sub_add_eq_add_sub, zpow_sub₀ two_ne_zero]; norm_cast

/-- The exponent of the last place is that of the leading bit, less the bits after it, unless the
format ends before. -/
theorem unitExponent_eq (f : Format) {num den : Nat} (hnum : 0 < num) (hden : 0 < den) :
    unitExponent f num den = max f.minExp (Int.log 2 (num / den : ℚ) + 1 - f.precision) := by
  have hpos : (0 : ℚ) < num / den := by positivity
  obtain ⟨low, high⟩ := quotient_bounds hnum hden
  rw [← Nat.cast_ofNat] at low high
  have hlow := (Int.zpow_le_iff_le_log one_lt_two hpos).1 low
  have hhigh := (Int.lt_zpow_iff_log_lt one_lt_two hpos).1 high
  have hgap := Int.lt_zpow_iff_log_lt one_lt_two hpos (x := num.log2 - den.log2)
  rw [Nat.cast_ofNat, ← quotient_lt_zpow_iff hden] at hgap
  simp only [unitExponent, hgap]
  split <;> omega

/-- The leading bit of a significand times a power of two. -/
theorem log_dyadic {m : Nat} (hm : m ≠ 0) (e : Int) : Int.log 2 (m * 2 ^ e : ℚ) = m.log2 + e := by
  have hm' : (0 : ℚ) < m := by exact_mod_cast hm.bot_lt
  have hpos : (0 : ℚ) < m * 2 ^ e := mul_pos hm' (zpow_pos two_pos e)
  have low : (2 : ℚ) ^ (m.log2 + e) ≤ m * 2 ^ e := by
    rw [zpow_add₀ two_ne_zero, zpow_natCast]
    gcongr
    exact_mod_cast Nat.log2_self_le hm
  have high : (m * 2 ^ e : ℚ) < 2 ^ (m.log2 + e + 1) := by
    rw [add_right_comm, zpow_add₀ two_ne_zero]
    gcongr
    exact_mod_cast Nat.lt_log2_self
  have hlow := (Int.zpow_le_iff_le_log one_lt_two hpos).1 (mod_cast low)
  have hhigh := (Int.lt_zpow_iff_log_lt one_lt_two hpos).1 (mod_cast high)
  omega

/-- A significand that fits has its last place where a canonical number has it. -/
theorem Format.Canonical.max_eq {f : Format} {m : Nat} {e : Int} (h : f.Canonical m e)
    (hm : m ≠ 0) : max f.minExp (m.log2 + e + 1 - f.precision) = e := by
  obtain ⟨hlt, hmin, -, hfull⟩ := h
  rw [Nat.one_shiftLeft] at hlt hfull
  have hlog := (Nat.log2_lt hm).2 hlt
  rcases hfull with rfl | hfull
  · omega
  · have := (Nat.le_log2 hm).2 hfull
    omega

/-- A whole quotient is not rounded. -/
theorem roundEven_mul {d : Nat} (m : Nat) (hd : 0 < d) : roundEven (m * d) d = m := by
  simp [roundEven, hd]

/-- One format is at least as wide as another, in its significands and at both ends. -/
structure Format.IsWithin (f g : Format) : Prop where
  precision : f.precision ≤ g.precision
  minExp : g.minExp ≤ f.minExp
  maxExp : f.maxExp ≤ g.maxExp

theorem Format.single_isWithin_double : Format.single.IsWithin .double where
  precision := by decide
  minExp := by decide
  maxExp := by decide

namespace Binary

variable {f g : Format} {m : Nat} {e : Int}

theorem ofParts_eq (negative : Bool) (h : f.Canonical m e) :
    ofParts f negative m e = finite negative m e h := dif_pos h

/-- A number of the format is its own rounding. -/
theorem round_eq (negative : Bool) (h : f.Canonical m e) {num den : Nat} (hden : 0 < den)
    (hvalue : (num / den : ℚ) = m * 2 ^ e) : round f negative num den = finite negative m e h := by
  have hden' : (den : ℚ) ≠ 0 := by exact_mod_cast hden.ne'
  rw [div_eq_iff hden'] at hvalue
  rcases eq_or_ne m 0 with rfl | hm
  · have hnum : num = 0 := by simpa using hvalue
    have he : e = f.minExp := by
      rcases h.2.2.2 with he | he
      · exact he
      · simp [Nat.one_shiftLeft] at he
    subst hnum he
    rw [round, if_pos rfl, ofParts_eq]
  · have hnum : num ≠ 0 := by
      rintro rfl
      have : (m * 2 ^ e : ℚ) ≠ 0 := mul_ne_zero (mod_cast hm) (zpow_ne_zero e two_ne_zero)
      exact mul_ne_zero this hden' (by simpa using hvalue.symm)
    have hunit : unitExponent f num den = e := by
      rw [unitExponent_eq f hnum.bot_lt hden, (div_eq_iff hden').2 hvalue, log_dyadic hm,
        h.max_eq hm]
    have hsignificand : (if 0 ≤ e then roundEven num (den <<< e.toNat)
        else roundEven (num <<< (-e).toNat) den) = m := by
      split
      case isTrue he =>
        obtain ⟨n, rfl⟩ := Int.eq_ofNat_of_zero_le he
        have hnum : num = m * den <<< n := by
          rw [Nat.shiftLeft_eq, mul_comm den, ← mul_assoc]
          exact_mod_cast hvalue
        rw [Int.toNat_natCast, hnum, roundEven_mul m (by simp [Nat.shiftLeft_eq, hden])]
      case isFalse he =>
        obtain ⟨n, hn⟩ := Int.exists_eq_neg_ofNat (le_of_not_ge he)
        subst hn
        have hnum : num <<< n = m * den := by
          rw [Nat.shiftLeft_eq]
          rw [zpow_neg, zpow_natCast] at hvalue
          field_simp at hvalue
          exact_mod_cast hvalue
        rw [neg_neg, Int.toNat_natCast, hnum, roundEven_mul m hden]
    simp only [round, if_neg hnum, hunit, hsignificand]
    rw [if_neg h.1.ne, ofParts_eq]

/-- A number of the format is its own rounding, at whatever exponent it is given. -/
theorem ofDyadic_eq (negative : Bool) (h : f.Canonical m e) {n : Nat} {d : Int}
    (hvalue : (n * 2 ^ d : ℚ) = m * 2 ^ e) : ofDyadic f negative n d = finite negative m e h := by
  unfold ofDyadic
  split
  case isTrue hd =>
    obtain ⟨k, rfl⟩ := Int.eq_ofNat_of_zero_le hd
    refine round_eq negative h Nat.one_pos (Eq.trans ?_ hvalue)
    simp [Nat.shiftLeft_eq]
  case isFalse hd =>
    obtain ⟨k, hk⟩ := Int.exists_eq_neg_ofNat (le_of_not_ge hd)
    subst hk
    refine round_eq negative h (by simp [Nat.one_shiftLeft]) (Eq.trans ?_ hvalue)
    simp [Nat.one_shiftLeft, div_eq_mul_inv]

/-- A format that is at least as wide has a canonical form of every number. -/
theorem exists_canonical (hwithin : f.IsWithin g) (h : f.Canonical m e) :
    ∃ n d, g.Canonical n d ∧ (n * 2 ^ d : ℚ) = m * 2 ^ e := by
  obtain ⟨hprecision, hmin, hmax⟩ := hwithin
  obtain ⟨hlt, hlow, hhigh, -⟩ := h
  rw [Nat.one_shiftLeft] at hlt
  rcases eq_or_ne m 0 with rfl | hm
  · exact ⟨0, g.minExp, ⟨by simp [Nat.one_shiftLeft], le_rfl, by omega, .inl rfl⟩, by simp⟩
  · have hlog := (Nat.log2_lt hm).2 hlt
    -- The significand is shifted until it uses all bits, or as far as the exponent can go.
    obtain ⟨k, hfits, hexp, hfull⟩ : ∃ k : Nat, m.log2 + 1 + k ≤ g.precision ∧
        g.minExp ≤ e - k ∧ (e - k = g.minExp ∨ g.precision - 1 = m.log2 + k) :=
      ⟨min (g.precision - m.log2 - 1) (e - g.minExp).toNat, by omega⟩
    refine ⟨m * 2 ^ k, e - k, ⟨?_, hexp, by omega, hfull.imp_right fun hfull => ?_⟩, ?_⟩
    · calc m * 2 ^ k < 2 ^ (m.log2 + 1) * 2 ^ k := by gcongr; exact Nat.lt_log2_self
        _ = 2 ^ (m.log2 + 1 + k) := (pow_add ..).symm
        _ ≤ 2 ^ g.precision := Nat.pow_le_pow_right two_pos hfits
        _ = 1 <<< g.precision := (Nat.one_shiftLeft _).symm
    · calc 1 <<< (g.precision - 1) = 2 ^ m.log2 * 2 ^ k := by
            rw [Nat.one_shiftLeft, hfull, pow_add]
        _ ≤ m * 2 ^ k := by gcongr; exact Nat.log2_self_le hm
    · rw [zpow_sub₀ two_ne_zero, zpow_natCast]
      push_cast
      field_simp

/-- The way to a format at least as wide and back changes no number. -/
theorem convert_convert (hwithin : f.IsWithin g) (x : Binary f) :
    (x.convert g).convert f = x := by
  cases x with
  | nan => rfl
  | infinite negative => rfl
  | finite negative m e h =>
      obtain ⟨n, d, hnd, hvalue⟩ := exists_canonical hwithin h
      rw [convert, ofDyadic_eq negative hnd hvalue.symm, convert, ofDyadic_eq negative h hvalue]

end Binary

end Cutscene.Numeric
