import Mathlib.Data.List.DropRight
import Cutscene.Text.Blank
import Cutscene.Text.Numeral

/-!
# Parts of a typed value

What the readers of typed values take and leave, said without them: `splitFirst?` cuts at the first
mark and nowhere else, `trimBlanks` leaves what is between the blanks at both ends (`Trims`), and
`readUnsigned` accepts the numerals of the numbers below its limit (`Numeral`) and nothing else.
-/

namespace Cutscene.Text

/-! ## The first mark -/

section

variable {mark : Char}

theorem splitFirst?_append {front : List Char} (h : mark ∉ front) (back : List Char) :
    splitFirst? mark (front ++ mark :: back) = some (front, back) := by
  induction front with
  | nil => simp [splitFirst?]
  | cons c front ih =>
      obtain ⟨hne, hnot⟩ := not_or.1 (mt List.mem_cons.2 h)
      rw [List.cons_append, splitFirst?, if_neg (Ne.symm hne), ih hnot, Option.map_some]

theorem splitFirst?_eq_none {cs : List Char} (h : mark ∉ cs) : splitFirst? mark cs = none := by
  induction cs with
  | nil => rfl
  | cons c rest ih =>
      obtain ⟨hne, hnot⟩ := not_or.1 (mt List.mem_cons.2 h)
      rw [splitFirst?, if_neg (Ne.symm hne), ih hnot, Option.map_none]

end

/-! ## Blanks -/

/-- What is left of some characters without the blanks at both ends. -/
structure Trims (cs core : List Char) : Prop where
  around : ∃ front back, cs = front ++ core ++ back ∧
    (∀ c ∈ front, isBlank c = true) ∧ ∀ c ∈ back, isBlank c = true
  first : ∀ c ∈ core.head?, isBlank c = false
  last : ∀ c ∈ core.getLast?, isBlank c = false

variable {cs core : List Char}

/-- Characters without blanks are left as they are. -/
theorem trims_self (h : ∀ c ∈ cs, isBlank c = false) : Trims cs cs where
  around := ⟨[], [], by simp, by simp, by simp⟩
  first c hc := h c (List.mem_of_mem_head? hc)
  last c hc := h c (List.mem_of_mem_getLast? hc)

theorem trimBlanks_eq (cs : List Char) :
    trimBlanks cs = (cs.dropWhile isBlank).rdropWhile isBlank := rfl

theorem trims_trimBlanks (cs : List Char) : Trims cs (trimBlanks cs) where
  around := by
    refine ⟨cs.takeWhile isBlank, (cs.dropWhile isBlank).rtakeWhile isBlank, ?_, ?_, ?_⟩
    · rw [trimBlanks_eq, List.append_assoc, List.rdropWhile_append_rtakeWhile,
        List.takeWhile_append_dropWhile]
    · exact fun c => List.mem_takeWhile_imp
    · exact fun c => List.mem_rtakeWhile_imp
  first c hc := by
    -- what is cut off at the back leaves the first character where it is
    obtain ⟨rest, hrest⟩ := List.rdropWhile_prefix isBlank (cs.dropWhile isBlank)
    have hhead : (cs.dropWhile isBlank).head? = some c := by
      rw [← hrest, List.head?_append, ← trimBlanks_eq, Option.mem_def.1 hc]
      rfl
    have hnot := List.head?_dropWhile_not isBlank cs
    rw [hhead] at hnot
    exact hnot
  last c hc := by
    obtain ⟨hne, rfl⟩ := List.mem_getLast?_eq_getLast hc
    exact Bool.eq_false_iff.2 (List.rdropWhile_last_not isBlank _ hne)

theorem Trims.trimBlanks_eq (h : Trims cs core) : trimBlanks cs = core := by
  obtain ⟨front, back, rfl, hfront, hback⟩ := h.around
  have hreverse : ∀ c ∈ back.reverse, isBlank c = true := fun c hc =>
    hback c (List.mem_reverse.1 hc)
  rw [Text.trimBlanks_eq, List.append_assoc, List.dropWhile_append_of_pos hfront]
  cases core with
  | nil => simp [List.dropWhile_eq_nil_iff.2 hback]
  | cons c core =>
      have hlast : (c :: core).rdropWhile isBlank = c :: core :=
        List.rdropWhile_eq_self_iff.2 fun hne =>
          Bool.eq_false_iff.1 (h.last _ (List.getLast_mem_getLast? hne))
      rw [List.cons_append, List.dropWhile_cons_of_neg (by simp [h.first c rfl]),
        ← List.cons_append, List.rdropWhile, List.reverse_append,
        List.dropWhile_append_of_pos hreverse]
      exact hlast

theorem trims_iff : Trims cs core ↔ trimBlanks cs = core :=
  ⟨Trims.trimBlanks_eq, fun h => h ▸ trims_trimBlanks cs⟩

/-! ## Numerals -/

/-- How a number is written: in decimal digits, at least one, and perhaps a plus sign in front. -/
inductive Numeral : List Char → Nat → Prop
  | plain {ds : List Char} (nonempty : ds ≠ []) (digits : ∀ d ∈ ds, d.isDigit = true) :
      Numeral ds (digitsValue ds)
  | signed {ds : List Char} (nonempty : ds ≠ []) (digits : ∀ d ∈ ds, d.isDigit = true) :
      Numeral ('+' :: ds) (digitsValue ds)

theorem digitValue?_eq (c : Char) :
    digitValue? c = if c.isDigit then some (c.toNat - '0'.toNat) else none := by
  unfold digitValue?
  congr 1
  simp [Char.isDigit, Char.le_def]

/-- A number grows with every digit that is read onto it. -/
theorem le_ofDigitChars (n : Nat) (cs : List Char) : n ≤ Nat.ofDigitChars 10 cs n := by
  induction cs generalizing n with
  | nil => exact Nat.le_refl n
  | cons c rest ih =>
      rw [Nat.ofDigitChars_cons]
      have hrest := ih (10 * n + (c.toNat - '0'.toNat))
      omega

/-- The limit is looked at after every digit, and it counts only for the number in the end. -/
theorem readDigits_eq_ok_iff {limit n m : Nat} : readDigits limit n cs = .ok m ↔
    (∀ c ∈ cs, c.isDigit = true) ∧ m = Nat.ofDigitChars 10 cs n ∧ (cs ≠ [] → m < limit) := by
  induction cs generalizing n with
  | nil => simpa [readDigits] using eq_comm
  | cons c rest ih =>
      rw [readDigits, digitValue?_eq, Nat.ofDigitChars_cons]
      by_cases hdigit : c.isDigit = true
      · rw [if_pos hdigit]
        dsimp only
        generalize 10 * n + (c.toNat - '0'.toNat) = k at *
        by_cases hlimit : limit ≤ k
        · rw [if_pos hlimit]
          refine iff_of_false (by simp) ?_
          rintro ⟨-, rfl, hlt⟩
          have hle := le_ofDigitChars k rest
          have hlt := hlt (List.cons_ne_nil c rest)
          omega
        · rw [if_neg hlimit, ih]
          constructor
          · rintro ⟨hdigits, rfl, hlt⟩
            refine ⟨List.forall_mem_cons.2 ⟨hdigit, hdigits⟩, rfl, fun _ => ?_⟩
            by_cases hrest : rest = []
            · rw [hrest, Nat.ofDigitChars_nil]
              exact Nat.lt_of_not_le hlimit
            · exact hlt hrest
          · rintro ⟨hdigits, rfl, hlt⟩
            exact ⟨(List.forall_mem_cons.1 hdigits).2, rfl, fun _ => hlt (List.cons_ne_nil c rest)⟩
      · rw [if_neg hdigit]
        exact iff_of_false (by simp) fun h => hdigit (h.1 c List.mem_cons_self)

theorem readUnsigned_of_signed {ds : List Char} (h : ds ≠ []) (limit : Nat) :
    readUnsigned limit ('+' :: ds) = readDigits limit 0 ds := by
  cases ds with
  | nil => exact absurd rfl h
  | cons d ds => rfl

theorem readUnsigned_of_plain {c : Char} (h : c ≠ '+') (limit : Nat) (rest : List Char) :
    readUnsigned limit (c :: rest) = readDigits limit 0 (c :: rest) := by
  unfold readUnsigned
  split
  · contradiction
  · simp_all
  · simp_all
  · rfl

/-- Reading accepts the numerals of the numbers below the limit and nothing else. -/
theorem readUnsigned_eq_ok_iff {limit n : Nat} :
    readUnsigned limit cs = .ok n ↔ Numeral cs n ∧ n < limit := by
  constructor
  · intro h
    rcases cs with _ | ⟨c, rest⟩
    · cases h
    · by_cases hplus : c = '+'
      · subst hplus
        have hrest : rest ≠ [] := by
          rintro rfl
          cases h
        rw [readUnsigned_of_signed hrest, readDigits_eq_ok_iff] at h
        obtain ⟨hdigits, rfl, hlt⟩ := h
        exact ⟨.signed hrest hdigits, hlt hrest⟩
      · rw [readUnsigned_of_plain hplus, readDigits_eq_ok_iff] at h
        obtain ⟨hdigits, rfl, hlt⟩ := h
        exact ⟨.plain (List.cons_ne_nil c rest) hdigits, hlt (List.cons_ne_nil c rest)⟩
  · rintro ⟨hnumeral, hlt⟩
    cases hnumeral with
    | @plain ds hne hdigits =>
        obtain ⟨d, rest, rfl⟩ := List.exists_cons_of_ne_nil hne
        have hplus : d ≠ '+' := by
          rintro rfl
          exact absurd (hdigits '+' List.mem_cons_self) (by decide)
        rw [readUnsigned_of_plain hplus]
        exact readDigits_eq_ok_iff.2 ⟨hdigits, rfl, fun _ => hlt⟩
    | @signed ds hne hdigits =>
        rw [readUnsigned_of_signed hne]
        exact readDigits_eq_ok_iff.2 ⟨hdigits, rfl, fun _ => hlt⟩

/-- A number is a numeral of itself in its decimal digits. -/
theorem numeral_toDigits (n : Nat) : Numeral (Nat.toDigits 10 n) n := by
  have hvalue : digitsValue (Nat.toDigits 10 n) = n := Nat.ofDigitChars_ten_toDigits
  have hnumeral : Numeral (Nat.toDigits 10 n) (digitsValue (Nat.toDigits 10 n)) :=
    .plain Nat.toDigits_ne_nil fun d hd => Nat.isDigit_of_mem_toDigits (by decide) (by decide) hd
  rwa [hvalue] at hnumeral

theorem isBlank_of_isDigit {c : Char} (h : c.isDigit = true) : isBlank c = false := by
  have hrange : 48 ≤ c.toNat ∧ c.toNat ≤ 57 := by
    simpa [Char.isDigit, UInt32.le_iff_toNat_le] using h
  refine Bool.eq_false_iff.2 fun hblank => ?_
  simp only [isBlank, blankRanges, List.any_cons, List.any_nil, Bool.or_eq_true, Bool.and_eq_true,
    decide_eq_true_eq, Bool.false_eq_true, or_false] at hblank
  omega

end Cutscene.Text
