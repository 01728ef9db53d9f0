import Cutscene.Proofs.Numeric.Exactness

/-!
# The error of one rounding

Every operation on binary numbers is the exact result, rounded once. The rounding is off by no more
than half a unit in the last place, which is a share of the number for numbers that use all bits of
the format and a fixed amount for those nearest to zero (`Binary.IsNear`). So a computation is a
chain of such steps, each beginning with the numbers that the steps before have left.
-/

namespace Cutscene.Numeric

/-! ## Quotients -/

/-- A quotient is off by no more than a half. -/
theorem abs_roundEven_sub_le (n : Nat) {d : Nat} (hd : 0 < d) :
    |(roundEven n d : ℚ) - n / d| ≤ 1 / 2 := by
  have hd' : (0 : ℚ) < d := by exact_mod_cast hd
  have hdivision : (n : ℚ) = d * (n / d : Nat) + (n % d : Nat) := by
    exact_mod_cast (Nat.div_add_mod n d).symm
  have hquotient : (n : ℚ) / d = (n / d : Nat) + (n % d : Nat) / d := by
    rw [hdivision]
    field_simp
  have hrest : 0 ≤ ((n % d : Nat) : ℚ) / d := by positivity
  unfold roundEven
  simp only
  rw [hquotient]
  rcases lt_trichotomy (2 * (n % d)) d with hlow | hhalf | hhigh
  · rw [if_pos hlow]
    have : ((n % d : Nat) : ℚ) / d ≤ 1 / 2 := by
      rw [div_le_div_iff₀ hd' two_pos]
      exact_mod_cast (by omega : n % d * 2 ≤ 1 * d)
    rw [abs_le]
    constructor <;> linarith
  · rw [if_neg hhalf.not_lt, if_neg hhalf.not_gt]
    have : ((n % d : Nat) : ℚ) / d = 1 / 2 := by
      rw [div_eq_div_iff hd'.ne' two_ne_zero]
      exact_mod_cast (by omega : n % d * 2 = 1 * d)
    rw [this]
    rcases Nat.mod_two_eq_zero_or_one (n / d) with heven | hodd
    · rw [heven, abs_le]
      constructor <;> push_cast <;> linarith
    · rw [hodd, abs_le]
      constructor <;> push_cast <;> linarith
  · rw [if_neg hhigh.not_gt, if_pos hhigh]
    have hupper : ((n % d : Nat) : ℚ) / d ≤ 1 := by
      rw [div_le_one hd']
      exact_mod_cast (Nat.mod_lt n hd).le
    have hlower : (1 : ℚ) / 2 ≤ ((n % d : Nat) : ℚ) / d := by
      rw [div_le_div_iff₀ two_pos hd']
      exact_mod_cast (by omega : 1 * d ≤ n % d * 2)
    rw [abs_le]
    push_cast
    constructor <;> linarith

/-- Rounding a half upwards is off by no more than a half. -/
theorem abs_half_up_sub_le (n : Nat) {d : Nat} (hd : 0 < d) :
    |(((2 * n + d) / (2 * d) : Int) : ℚ) - n / d| ≤ 1 / 2 := by
  have hd' : (0 : ℚ) < d := by exact_mod_cast hd
  have hlow : ((2 * n + d) / (2 * d) : Int) * (2 * d) ≤ 2 * n + d :=
    Int.ediv_mul_le _ (by omega)
  have hhigh : (2 * n + d : Int) < ((2 * n + d) / (2 * d) + 1) * (2 * d) :=
    Int.lt_ediv_add_one_mul_self _ (by omega)
  generalize ((2 * n + d) / (2 * d) : Int) = q at *
  have hlow' : (q : ℚ) * (2 * d) ≤ 2 * n + d := by exact_mod_cast hlow
  have hhigh' : (2 * n + d : ℚ) < (q + 1) * (2 * d) := by exact_mod_cast hhigh
  have hn : (n : ℚ) = n / d * d := (div_mul_cancel₀ _ hd'.ne').symm
  rw [abs_le]
  constructor
  · refine le_of_mul_le_mul_right ?_ hd'
    linarith
  · refine le_of_mul_le_mul_right ?_ hd'
    linarith

/-- What lies between two natural numbers is rounded to one that lies there too. -/
theorem le_roundEven {k n d : Nat} (hd : 0 < d) (h : (k : ℚ) ≤ n / d) : k ≤ roundEven n d := by
  have hk : k ≤ n / d := by
    rw [Nat.le_div_iff_mul_le hd]
    rw [le_div_iff₀ (by exact_mod_cast hd)] at h
    exact_mod_cast h
  unfold roundEven
  simp only
  split_ifs <;> omega

theorem roundEven_le {k n d : Nat} (hd : 0 < d) (h : (n / d : ℚ) ≤ k) : roundEven n d ≤ k := by
  rw [div_le_iff₀ (by exact_mod_cast hd)] at h
  have hn : n ≤ k * d := by exact_mod_cast h
  have hdivision := Nat.div_add_mod n d
  have hk : n / d ≤ k := Nat.div_le_of_le_mul (by rwa [mul_comm])
  rcases Nat.lt_or_eq_of_le hk with hlt | heq
  · unfold roundEven
    simp only
    split_ifs <;> omega
  · have hmod : n % d = 0 := by
      rw [heq] at hdivision
      have := mul_comm k d
      omega
    unfold roundEven
    simp only [hmod, Nat.mul_zero, if_pos hd]
    exact hk

/-- The quotient that is rounded to a significand is the number in units of its last place. -/
theorem exists_roundEven_eq (num : Nat) {den : Nat} (hden : 0 < den) (e : Int) :
    ∃ n d : Nat, 0 < d ∧ (n / d : ℚ) = num / den / 2 ^ e ∧
      (if 0 ≤ e then roundEven num (den <<< e.toNat)
        else roundEven (num <<< (-e).toNat) den) = roundEven n d := by
  split
  case isTrue he =>
    obtain ⟨k, rfl⟩ := Int.eq_ofNat_of_zero_le he
    refine ⟨num, den <<< k, by simp [Nat.shiftLeft_eq, hden], ?_, rfl⟩
    rw [Nat.shiftLeft_eq, zpow_natCast]
    push_cast
    rw [div_div]
  case isFalse he =>
    obtain ⟨k, hk⟩ := Int.exists_eq_neg_ofNat (le_of_not_ge he)
    subst hk
    refine ⟨num <<< k, den, hden, ?_, by rw [neg_neg]; rfl⟩
    rw [Nat.shiftLeft_eq, zpow_neg, zpow_natCast]
    push_cast
    rw [div_inv_eq_mul, div_mul_eq_mul_div]

namespace Binary

variable {f : Format}

/-! ## Values -/

/-- The number that a binary number is; those that are no numbers count as zero. -/
def value : Binary f → ℚ
  | finite false m e _ => m * 2 ^ e
  | finite true m e _ => -(m * 2 ^ e)
  | _ => 0

/-- A number that is off by no more than one rounding. -/
structure IsNear (x : Binary f) (q : ℚ) : Prop where
  finite : x.isFinite = true
  near : |x.value - q| ≤ |q| * 2 ^ (-f.precision : Int) + 2 ^ (f.minExp - 1)

/-- A number with or without a minus sign. -/
def signed (negative : Bool) (q : ℚ) : ℚ := if negative then -q else q

theorem value_finite (negative : Bool) {m : Nat} {e : Int} (h : f.Canonical m e) :
    (finite negative m e h).value = signed negative (m * 2 ^ e) := by
  cases negative <;> rfl

theorem abs_signed (negative : Bool) (q : ℚ) : |signed negative q| = |q| := by
  cases negative with
  | false => rfl
  | true => exact abs_neg q

theorem isNear_signed {negative : Bool} {m : Nat} {e : Int} (h : f.Canonical m e) {q : ℚ}
    (hnear : |m * 2 ^ e - q| ≤ |q| * 2 ^ (-f.precision : Int) + 2 ^ (f.minExp - 1)) :
    (Binary.finite negative m e h).IsNear (signed negative q) := by
  refine ⟨rfl, ?_⟩
  rw [value_finite]
  cases negative with
  | false => exact hnear
  | true =>
      change |-(m * 2 ^ e : ℚ) - -q| ≤ |-q| * _ + _
      rw [neg_sub_neg, abs_sub_comm, abs_neg]
      exact hnear

end Binary

/-- A format has at least one bit and more than one exponent. -/
structure Format.Proper (f : Format) : Prop where
  precision : 0 < f.precision
  exponents : f.minExp < f.maxExp

theorem Format.single_proper : Format.single.Proper where
  precision := by decide
  exponents := by decide

/-- A number is not too large for a format. -/
def Format.Reaches (f : Format) (q : ℚ) : Prop := |q| < 2 ^ (f.maxExp + f.precision - 1)

theorem Format.reaches_zero (f : Format) : f.Reaches 0 := by
  rw [Reaches, abs_zero]
  positivity

namespace Binary

variable {f : Format}

/-- The last place of a quotient: the quotient has no more places than the format has bits, all of
them unless it is among the numbers nearest to zero, and the place is not the greatest. -/
theorem unitExponent_bounds (hf : f.Proper) {num den : Nat} (hnum : 0 < num) (hden : 0 < den)
    (hsmall : f.Reaches (num / den)) :
    let e := unitExponent f num den
    f.minExp ≤ e ∧ e < f.maxExp ∧ (num / den / 2 ^ e : ℚ) < 2 ^ f.precision ∧
      (e = f.minExp ∨ (2 : ℚ) ^ (f.precision - 1) ≤ num / den / 2 ^ e) := by
  have hpos : (0 : ℚ) < num / den := by positivity
  have hlow : (2 : ℚ) ^ Int.log 2 (num / den : ℚ) ≤ num / den :=
    Int.zpow_log_le_self one_lt_two hpos
  have hhigh : (num / den : ℚ) < 2 ^ (Int.log 2 (num / den : ℚ) + 1) :=
    Int.lt_zpow_succ_log_self one_lt_two _
  have hlog : Int.log 2 (num / den : ℚ) < f.maxExp + f.precision - 1 :=
    (Int.lt_zpow_iff_log_lt one_lt_two hpos).1 (mod_cast (abs_of_pos hpos).symm.trans_lt hsmall)
  have hunit := unitExponent_eq f hnum hden
  have hexponents := hf.exponents
  have hprecision := hf.precision
  intro e
  have he : (0 : ℚ) < 2 ^ e := zpow_pos two_pos e
  refine ⟨by omega, by omega, ?_, ?_⟩
  · rw [div_lt_iff₀ he, ← zpow_natCast, ← zpow_add₀ two_ne_zero]
    exact hhigh.trans_le (zpow_le_zpow_right₀ one_le_two (by omega))
  · by_cases hmin : e = f.minExp
    · exact .inl hmin
    · right
      rw [le_div_iff₀ he, ← zpow_natCast, ← zpow_add₀ two_ne_zero]
      exact (zpow_le_zpow_right₀ one_le_two (by omega)).trans hlow

/-- Half a unit in the last place. -/
theorem half_unit_le (f : Format) {num den : Nat} (hnum : 0 < num) (hden : 0 < den) :
    (2 : ℚ) ^ unitExponent f num den / 2 ≤
      num / den * 2 ^ (-f.precision : Int) + 2 ^ (f.minExp - 1) := by
  have hpos : (0 : ℚ) < num / den := by positivity
  have hlow : (2 : ℚ) ^ Int.log 2 (num / den : ℚ) ≤ num / den :=
    Int.zpow_log_le_self one_lt_two hpos
  have hhalf : (2 : ℚ) ^ unitExponent f num den / 2 = 2 ^ (unitExponent f num den - 1) := by
    rw [zpow_sub₀ two_ne_zero, zpow_one]
  rw [hhalf, unitExponent_eq f hnum hden]
  rcases max_choice f.minExp (Int.log 2 (num / den : ℚ) + 1 - f.precision) with hmax | hmax
  · rw [hmax]
    have : (0 : ℚ) ≤ num / den * 2 ^ (-f.precision : Int) := by positivity
    linarith
  · rw [hmax, show Int.log 2 (num / den : ℚ) + 1 - f.precision - 1 =
      Int.log 2 (num / den : ℚ) + -f.precision by ring, zpow_add₀ two_ne_zero]
    have hshare : (2 : ℚ) ^ Int.log 2 (num / den : ℚ) * 2 ^ (-f.precision : Int) ≤
        num / den * 2 ^ (-f.precision : Int) := by gcongr
    have : (0 : ℚ) ≤ 2 ^ (f.minExp - 1) := by positivity
    linarith

/-- A significand that has been rounded up to a power of two is shifted by one place. -/
theorem carried_eq (hf : f.Proper) (e : Int) :
    ((1 <<< (f.precision - 1) : Nat) : ℚ) * (2 : ℚ) ^ (e + 1) =
      ((1 <<< f.precision : Nat) : ℚ) * (2 : ℚ) ^ e := by
  rw [Nat.one_shiftLeft, Nat.one_shiftLeft, zpow_add₀ two_ne_zero, zpow_one]
  push_cast
  rw [mul_left_comm, ← pow_succ, Nat.sub_add_cancel hf.precision, mul_comm]

/-- A rounded quotient is off by no more than one rounding. -/
theorem round_isNear (hf : f.Proper) (negative : Bool) {num den : Nat} (hden : 0 < den)
    (hsmall : f.Reaches (num / den)) :
    (round f negative num den).IsNear (signed negative (num / den)) := by
  have hexponents := hf.exponents
  rcases Nat.eq_zero_or_pos num with rfl | hnum
  · have hzero : f.Canonical 0 f.minExp :=
      ⟨by simp [Nat.one_shiftLeft], le_rfl, hexponents.le, .inl rfl⟩
    rw [round, if_pos rfl, ofParts_eq negative hzero]
    refine isNear_signed hzero ?_
    simp only [Nat.cast_zero, zero_mul, zero_div, sub_zero, abs_zero, zero_add]
    positivity
  · obtain ⟨hmin, hmax, hfits, hfull⟩ := unitExponent_bounds hf hnum hden hsmall
    have hhalf := half_unit_le f hnum hden
    obtain ⟨n, d, hd, hquotient, hsignificand⟩ :=
      exists_roundEven_eq num hden (unitExponent f num den)
    have hpos : (0 : ℚ) ≤ num / den := by positivity
    simp only [round, if_neg hnum.ne', hsignificand]
    generalize unitExponent f num den = e at *
    have he : (0 : ℚ) < 2 ^ e := zpow_pos two_pos e
    -- The significand is off by a half at most, so the number is by half a unit of its last place.
    have herror : |(roundEven n d : ℚ) * 2 ^ e - num / den| ≤
        |(num / den : ℚ)| * 2 ^ (-f.precision : Int) + 2 ^ (f.minExp - 1) := by
      have hsplit : (roundEven n d : ℚ) * 2 ^ e - num / den =
          (roundEven n d - n / d) * 2 ^ e := by
        rw [hquotient, sub_mul, div_mul_cancel₀ _ he.ne']
      rw [hsplit, abs_mul, abs_of_pos he, abs_of_nonneg hpos]
      calc |(roundEven n d : ℚ) - n / d| * 2 ^ e ≤ 1 / 2 * 2 ^ e := by
            gcongr
            exact abs_roundEven_sub_le n hd
        _ ≤ _ := by linarith
    have hle : roundEven n d ≤ 2 ^ f.precision :=
      roundEven_le hd (by rw [hquotient]; exact_mod_cast hfits.le)
    have hprecision : 2 ^ (f.precision - 1) < 2 ^ f.precision :=
      Nat.pow_lt_pow_right one_lt_two (Nat.sub_lt hf.precision one_pos)
    by_cases hcarry : roundEven n d = 1 <<< f.precision
    · have hcanonical : f.Canonical (1 <<< (f.precision - 1)) (e + 1) :=
        ⟨by simpa [Nat.one_shiftLeft] using hprecision, by omega, by omega, .inr le_rfl⟩
      rw [if_pos hcarry, ofParts_eq negative hcanonical]
      refine isNear_signed hcanonical ?_
      rw [carried_eq hf, ← hcarry]
      exact herror
    · rw [Nat.one_shiftLeft] at hcarry
      have hcanonical : f.Canonical (roundEven n d) e := by
        refine ⟨by rw [Nat.one_shiftLeft]; omega, hmin, hmax.le, hfull.imp_right fun hfull => ?_⟩
        rw [Nat.one_shiftLeft]
        exact le_roundEven hd (by rw [hquotient]; exact_mod_cast hfull)
      rw [Nat.one_shiftLeft, if_neg hcarry, ofParts_eq negative hcanonical]
      exact isNear_signed hcanonical herror

/-! ## One operation

An operation on finite numbers whose result the format reaches is off by no more than one
rounding. -/

theorem ofDyadic_isNear (hf : f.Proper) (negative : Bool) {m : Nat} {e : Int}
    (hsmall : f.Reaches (m * 2 ^ e)) :
    (ofDyadic f negative m e).IsNear (signed negative (m * 2 ^ e)) := by
  unfold ofDyadic
  split
  case isTrue he =>
    obtain ⟨k, rfl⟩ := Int.eq_ofNat_of_zero_le he
    have hsame : (m * 2 ^ (k : Int) : ℚ) = (m <<< k : Nat) / (1 : Nat) := by
      simp [Nat.shiftLeft_eq]
    change (round f negative (m <<< k) 1).IsNear (signed negative (m * 2 ^ (k : Int)))
    change f.Reaches (m * 2 ^ (k : Int)) at hsmall
    rw [hsame] at hsmall ⊢
    exact round_isNear hf negative Nat.one_pos hsmall
  case isFalse he =>
    obtain ⟨k, hk⟩ := Int.exists_eq_neg_ofNat (le_of_not_ge he)
    subst hk
    have hsame : (m * 2 ^ (-k : Int) : ℚ) = m / (1 <<< k : Nat) := by
      simp [Nat.one_shiftLeft, div_eq_mul_inv]
    rw [hsame] at hsmall ⊢
    rw [neg_neg, Int.toNat_natCast]
    exact round_isNear hf negative (by simp [Nat.one_shiftLeft]) hsmall

theorem zero_isNear (hf : f.Proper) (negative : Bool) : (zero negative : Binary f).IsNear 0 := by
  have hsigned : signed negative ((0 : Nat) / (1 : Nat) : ℚ) = 0 := by
    cases negative <;> simp [signed]
  rw [← hsigned]
  exact round_isNear hf negative Nat.one_pos (by simpa using f.reaches_zero)

theorem ofNat_isNear (hf : f.Proper) {n : Nat} (hsmall : f.Reaches n) :
    (ofNat n : Binary f).IsNear n := by
  have hsame : (n : ℚ) = n / (1 : Nat) := by simp
  rw [hsame] at hsmall ⊢
  exact round_isNear hf false Nat.one_pos hsmall

/-- A finite number by its parts. -/
theorem exists_of_isFinite {x : Binary f} (h : x.isFinite = true) :
    ∃ negative m e, ∃ hcanonical : f.Canonical m e, x = finite negative m e hcanonical := by
  cases x with
  | finite negative m e hcanonical => exact ⟨negative, m, e, hcanonical, rfl⟩
  | nan => cases h
  | infinite negative => cases h

/-- A signed significand is the number in units of the finer exponent. -/
theorem scaled_mul (negative : Bool) {m : Nat} {e unit : Int} (hunit : unit ≤ e) :
    (scaled negative m e unit : ℚ) * 2 ^ unit = signed negative (m * 2 ^ e) := by
  obtain ⟨k, hk⟩ := Int.le.dest hunit
  subst hk
  have hshift : (unit + k - unit).toNat = k := by omega
  have hscaled : (((m : Int) <<< k : Int) : ℚ) * 2 ^ unit = m * 2 ^ (unit + k) := by
    rw [Int.shiftLeft_eq, zpow_add₀ two_ne_zero, zpow_natCast]
    push_cast
    ring
  rw [scaled, signed, hshift, ← hscaled]
  cases negative with
  | false => rfl
  | true => simp

theorem signed_natAbs (n : Int) (q : ℚ) : signed (n < 0) (n.natAbs * q) = n * q := by
  rw [Nat.cast_natAbs]
  rcases lt_or_ge n 0 with hneg | hpos
  · rw [signed, if_pos (by simpa using hneg), abs_of_neg hneg]
    push_cast
    ring
  · rw [signed, if_neg (by simpa using hpos), abs_of_nonneg hpos]

variable {x y : Binary f}

theorem add_isNear (hf : f.Proper) (hx : x.isFinite = true) (hy : y.isFinite = true)
    (hsmall : f.Reaches (x.value + y.value)) : (x + y).IsNear (x.value + y.value) := by
  obtain ⟨s, m, e, hm, rfl⟩ := exists_of_isFinite hx
  obtain ⟨t, n, d, hn, rfl⟩ := exists_of_isFinite hy
  have hsum : ((scaled s m e (min e d) + scaled t n d (min e d) : Int) : ℚ) * 2 ^ min e d =
      (finite s m e hm).value + (finite t n d hn).value := by
    rw [value_finite, value_finite, Int.cast_add, add_mul, scaled_mul s (min_le_left e d),
      scaled_mul t (min_le_right e d)]
  change (add _ _).IsNear _
  rw [← hsum] at hsmall ⊢
  unfold add
  dsimp only
  split
  case isTrue hzero =>
    rw [hzero, Int.cast_zero, zero_mul]
    exact zero_isNear hf _
  case isFalse =>
    rw [← signed_natAbs, Format.Reaches, abs_signed] at hsmall
    rw [← signed_natAbs]
    exact ofDyadic_isNear hf _ hsmall

theorem value_neg (x : Binary f) : (-x).value = -x.value := by
  cases x with
  | finite negative m e h =>
      cases negative with
      | false => rfl
      | true => exact (neg_neg _).symm
  | nan => exact neg_zero.symm
  | infinite negative => exact neg_zero.symm

theorem isFinite_neg (x : Binary f) : (-x).isFinite = x.isFinite := by
  cases x <;> rfl

theorem sub_isNear (hf : f.Proper) (hx : x.isFinite = true) (hy : y.isFinite = true)
    (hsmall : f.Reaches (x.value - y.value)) : (x - y).IsNear (x.value - y.value) := by
  rw [sub_eq_add_neg, ← value_neg] at hsmall ⊢
  exact add_isNear hf hx ((isFinite_neg y).trans hy) hsmall

theorem mul_isNear (hf : f.Proper) (hx : x.isFinite = true) (hy : y.isFinite = true)
    (hsmall : f.Reaches (x.value * y.value)) : (x * y).IsNear (x.value * y.value) := by
  obtain ⟨s, m, e, hm, rfl⟩ := exists_of_isFinite hx
  obtain ⟨t, n, d, hn, rfl⟩ := exists_of_isFinite hy
  have hproduct : (finite s m e hm).value * (finite t n d hn).value =
      signed (s != t) ((m * n : Nat) * 2 ^ (e + d)) := by
    rw [value_finite, value_finite, zpow_add₀ two_ne_zero]
    cases s <;> cases t <;> simp [signed] <;> ring
  change (mul _ _).IsNear _
  rw [hproduct] at hsmall ⊢
  rw [Format.Reaches, abs_signed] at hsmall
  exact ofDyadic_isNear hf _ hsmall

theorem div_isNear (hf : f.Proper) (hx : x.isFinite = true) (hy : y.isFinite = true)
    (hzero : y.value ≠ 0) (hsmall : f.Reaches (x.value / y.value)) :
    (x / y).IsNear (x.value / y.value) := by
  obtain ⟨s, m, e, hm, rfl⟩ := exists_of_isFinite hx
  obtain ⟨t, n, d, hn, rfl⟩ := exists_of_isFinite hy
  have hn_ne : n ≠ 0 := by
    rintro rfl
    exact hzero (by rw [value_finite]; cases t <;> simp [signed])
  have hquotient : (finite s m e hm).value / (finite t n d hn).value =
      signed (s != t) (m / n * 2 ^ (e - d)) := by
    rw [value_finite, value_finite, zpow_sub₀ two_ne_zero]
    cases s <;> cases t <;> simp [signed] <;> field_simp
  change (div _ _).IsNear _
  rw [hquotient] at hsmall ⊢
  rw [Format.Reaches, abs_signed] at hsmall
  unfold div
  dsimp only
  rw [if_neg hn_ne]
  split
  case isTrue hle =>
    obtain ⟨k, hk⟩ := Int.le.dest hle
    have hsame : (m / n * 2 ^ (e - d) : ℚ) = (m <<< (e - d).toNat : Nat) / n := by
      rw [show e - d = k by omega, zpow_natCast, Int.toNat_natCast, Nat.shiftLeft_eq]
      push_cast
      ring
    rw [hsame] at hsmall ⊢
    exact round_isNear hf _ hn_ne.bot_lt hsmall
  case isFalse hlt =>
    obtain ⟨k, hk⟩ := Int.le.dest (le_of_not_ge hlt)
    have hsame : (m / n * 2 ^ (e - d) : ℚ) = m / (n <<< (d - e).toNat : Nat) := by
      rw [show e - d = -k by omega, show d - e = k by omega, zpow_neg, zpow_natCast,
        Int.toNat_natCast, Nat.shiftLeft_eq]
      push_cast
      rw [← div_eq_mul_inv, div_div]
    rw [hsame] at hsmall ⊢
    exact round_isNear hf _ (by simp [Nat.shiftLeft_eq, hn_ne.pos]) hsmall

/-! ## Whole numbers -/

/-- A whole number of the format is its own rounding. -/
theorem value_ofNat {n m : Nat} {e : Int} (h : f.Canonical m e) (hvalue : (n : ℚ) = m * 2 ^ e) :
    (ofNat n : Binary f).isFinite = true ∧ (ofNat n : Binary f).value = n := by
  have hsame : ofNat n = finite false m e h :=
    round_eq false h Nat.one_pos (by rw [Nat.cast_one, div_one, hvalue])
  rw [hsame]
  exact ⟨rfl, hvalue.symm⟩

theorem fraction_eq (m : Nat) (e : Int) :
    0 < (fraction m e).2 ∧ ((fraction m e).1 / (fraction m e).2 : ℚ) = m * 2 ^ e := by
  unfold fraction
  split
  case isTrue he =>
    obtain ⟨k, rfl⟩ := Int.eq_ofNat_of_zero_le he
    simp [Nat.shiftLeft_eq]
  case isFalse he =>
    obtain ⟨k, hk⟩ := Int.exists_eq_neg_ofNat (le_of_not_ge he)
    subst hk
    simp [Nat.one_shiftLeft, div_eq_mul_inv]

/-- The nearest integer is off by no more than a half. -/
theorem exists_roundAway (h : x.isFinite = true) :
    ∃ n : Int, x.roundAway = some n ∧ |(n : ℚ) - x.value| ≤ 1 / 2 := by
  obtain ⟨s, m, e, hm, rfl⟩ := exists_of_isFinite h
  obtain ⟨hd, hvalue⟩ := fraction_eq m e
  rcases hfraction : fraction m e with ⟨n, d⟩
  rw [hfraction] at hd hvalue
  have herror := abs_half_up_sub_le n hd
  refine ⟨_, by rw [roundAway, hfraction], ?_⟩
  rw [value_finite, ← hvalue]
  cases s with
  | false => exact herror
  | true =>
      rw [if_pos rfl, Int.cast_neg]
      change |-_ - -(n / d : ℚ)| ≤ 1 / 2
      rw [neg_sub_neg, abs_sub_comm]
      exact herror

end Binary

/-- In the 32-bit format a rounding is off by no more than half a unit in the last place of any
bound, as long as the bound is of a middling size. -/
theorem single_near {x : Single} {q bound : ℚ} (h : Format.single.Reaches q → x.IsNear q)
    (hq : |q| ≤ bound) (hlow : 1 / 1000 ≤ bound) (hhigh : bound ≤ 2 ^ 100) :
    x.isFinite = true ∧ |x.value - q| ≤ bound / 2 ^ 23 := by
  have hreaches : Format.single.Reaches q :=
    (hq.trans hhigh).trans_lt (by norm_num [Format.single])
  have htiny : (2 : ℚ) ^ (Format.single.minExp - 1) ≤ 1 / 1000 * 2 ^ (-24 : Int) := by
    norm_num [Format.single]
  obtain ⟨hfinite, hnear⟩ := h hreaches
  refine ⟨hfinite, ?_⟩
  calc |x.value - q| ≤ |q| * 2 ^ (-24 : Int) + 2 ^ (Format.single.minExp - 1) := hnear
    _ ≤ bound * 2 ^ (-24 : Int) + bound * 2 ^ (-24 : Int) := by
        refine add_le_add ?_ (htiny.trans ?_) <;> gcongr
    _ = bound / 2 ^ 23 := by
        norm_num
        ring

end Cutscene.Numeric
