/-!
# Binary floating-point numbers

Positions, fades and script arithmetic use the two common binary formats: a significand of a fixed
number of bits times a power of two, with two infinities, a value for "not a number" and a signed
zero. A finite number is kept in its one canonical form (`Format.Canonical`), so that two finite
numbers are equal as data exactly when they are the same number with the same sign.

Every operation is the exact rational result followed by one rounding to the nearest
representable number, ties to the even significand (`Binary.round`). Nothing depends on the
machine's arithmetic, so a computation can be replayed inside a proof.
-/

namespace Cutscene.Numeric

/-- A binary format: the bits of a significand (the leading one included) and the least and
greatest exponent of its last place. -/
structure Format where
  /-- Number of significant bits. -/
  precision : Nat
  /-- Exponent of the last place of the numbers nearest to zero. -/
  minExp : Int
  /-- Exponent of the last place of the largest numbers. -/
  maxExp : Int
deriving DecidableEq, Repr

namespace Format

/-- The 32-bit format. -/
def single : Format := ⟨24, -149, 104⟩

/-- The 64-bit format. -/
def double : Format := ⟨53, -1074, 971⟩

/-- A significand and an exponent are canonical when the significand uses all its bits, or its
last place is already the finest the format has. -/
def Canonical (f : Format) (m : Nat) (e : Int) : Prop :=
  m < 1 <<< f.precision ∧ f.minExp ≤ e ∧ e ≤ f.maxExp ∧
    (e = f.minExp ∨ 1 <<< (f.precision - 1) ≤ m)

instance (f : Format) (m : Nat) (e : Int) : Decidable (f.Canonical m e) := by
  unfold Canonical; infer_instance

end Format

/-- A number of a binary format. -/
inductive Binary (f : Format) where
  /-- Not a number. -/
  | nan
  /-- An infinity. -/
  | infinite (negative : Bool)
  /-- The number `± significand * 2 ^ exponent`. -/
  | finite (negative : Bool) (significand : Nat) (exponent : Int)
      (canonical : f.Canonical significand exponent)
deriving DecidableEq

/-- Numbers of the 32-bit format. -/
abbrev Single := Binary .single

/-- Numbers of the 64-bit format. -/
abbrev Double := Binary .double

/-- `n / d` rounded to the nearest natural number, a half to the even neighbour. -/
def roundEven (n d : Nat) : Nat :=
  let q := n / d
  let twice := 2 * (n % d)
  if twice < d then q else if d < twice then q + 1 else q + q % 2

/-- The exponent of the last place that `num / den` gets in a format without a greatest exponent:
the least one, not below the format's, at which the quotient needs no more than all its bits. -/
def unitExponent (f : Format) (num den : Nat) : Int :=
  let gap : Int := (num.log2 : Int) - den.log2
  let below := if 0 ≤ gap then num < den <<< gap.toNat else num <<< (-gap).toNat < den
  max f.minExp (if below then gap - f.precision else gap + 1 - f.precision)

namespace Binary

variable {f g : Format}

/-- A finite number from its parts; parts that are out of the format's range give an infinity. -/
def ofParts (f : Format) (negative : Bool) (m : Nat) (e : Int) : Binary f :=
  if h : f.Canonical m e then .finite negative m e h else .infinite negative

/-- The representable number nearest to `± num / den`. -/
def round (f : Format) (negative : Bool) (num den : Nat) : Binary f :=
  if num = 0 then ofParts f negative 0 f.minExp
  else
    let e := unitExponent f num den
    let m := if 0 ≤ e then roundEven num (den <<< e.toNat) else roundEven (num <<< (-e).toNat) den
    if m = 1 <<< f.precision then ofParts f negative (1 <<< (f.precision - 1)) (e + 1)
    else ofParts f negative m e

/-- The representable number nearest to `± m * 2 ^ e`. -/
def ofDyadic (f : Format) (negative : Bool) (m : Nat) (e : Int) : Binary f :=
  if 0 ≤ e then round f negative (m <<< e.toNat) 1 else round f negative m (1 <<< (-e).toNat)

/-- Zero with a sign. -/
def zero (negative : Bool) : Binary f := round f negative 0 1

instance : Inhabited (Binary f) := ⟨zero false⟩

/-- The representable number nearest to a natural number. -/
def ofNat (n : Nat) : Binary f := round f false n 1

/-- The representable number nearest to an integer. -/
def ofInt (n : Int) : Binary f := round f (n < 0) n.natAbs 1

/-- The number nearest to one of another format. -/
def convert (g : Format) : Binary f → Binary g
  | nan => nan
  | infinite s => infinite s
  | finite s m e _ => ofDyadic g s m e

/-- Whether the number is neither an infinity nor "not a number". -/
def isFinite : Binary f → Bool
  | finite .. => true
  | _ => false

/-- Whether the number is one of the two zeros. -/
def isZero : Binary f → Bool
  | finite _ m _ _ => m == 0
  | _ => false

/-- The number with the opposite sign. -/
def neg : Binary f → Binary f
  | nan => nan
  | infinite s => infinite (!s)
  | finite s m e h => finite (!s) m e h

/-- Signed significand at a given finer exponent. -/
def scaled (negative : Bool) (m : Nat) (e unit : Int) : Int :=
  let n : Int := m <<< (e - unit).toNat
  if negative then -n else n

/-! ## Arithmetic -/

/-- Sum, rounded once. Opposite infinities have no sum; a sum that cancels is a positive zero. -/
def add : Binary f → Binary f → Binary f
  | nan, _ => nan
  | _, nan => nan
  | infinite s, infinite t => if s = t then infinite s else nan
  | infinite s, finite .. => infinite s
  | finite .., infinite t => infinite t
  | finite s m e _, finite t n d _ =>
    let unit := min e d
    let sum := scaled s m e unit + scaled t n d unit
    if sum = 0 then zero (s && t) else ofDyadic f (sum < 0) sum.natAbs unit

/-- Product, rounded once. -/
def mul : Binary f → Binary f → Binary f
  | nan, _ => nan
  | _, nan => nan
  | infinite s, infinite t => infinite (s != t)
  | infinite s, finite t n _ _ => if n = 0 then nan else infinite (s != t)
  | finite s m _ _, infinite t => if m = 0 then nan else infinite (s != t)
  | finite s m e _, finite t n d _ => ofDyadic f (s != t) (m * n) (e + d)

/-- Quotient, rounded once. A nonzero number over zero is infinite. -/
def div : Binary f → Binary f → Binary f
  | nan, _ => nan
  | _, nan => nan
  | infinite _, infinite _ => nan
  | infinite s, finite t _ _ _ => infinite (s != t)
  | finite s _ _ _, infinite t => zero (s != t)
  | finite s m e _, finite t n d _ =>
    if n = 0 then (if m = 0 then nan else infinite (s != t))
    else if d ≤ e then round f (s != t) (m <<< (e - d).toNat) n
    else round f (s != t) m (n <<< (d - e).toNat)

instance : Add (Binary f) := ⟨add⟩
instance : Mul (Binary f) := ⟨mul⟩
instance : Div (Binary f) := ⟨div⟩
instance : Neg (Binary f) := ⟨neg⟩
instance : Sub (Binary f) := ⟨fun x y => x + -y⟩

/-! ## Order

The three comparisons are those of the numbers: the two zeros are equal, and "not a number"
compares with nothing, itself included. -/

/-- The numeric order, undefined at "not a number". -/
def cmp? : Binary f → Binary f → Option Ordering
  | nan, _ => none
  | _, nan => none
  | infinite s, infinite t => some (compare t.toNat s.toNat)
  | infinite s, finite .. => some (if s then .lt else .gt)
  | finite .., infinite t => some (if t then .gt else .lt)
  | finite s m e _, finite t n d _ =>
    let unit := min e d
    some (compare (scaled s m e unit) (scaled t n d unit))

/-- Numerically less. -/
def lt (x y : Binary f) : Bool := cmp? x y == some .lt

/-- Numerically less or equal. -/
def le (x y : Binary f) : Bool := cmp? x y == some .lt || cmp? x y == some .eq

/-- Numerically equal. -/
def eqv (x y : Binary f) : Bool := cmp? x y == some .eq

/-! ## Integers -/

/-- The magnitude of a finite number as a fraction. -/
def fraction (m : Nat) (e : Int) : Nat × Nat :=
  if 0 ≤ e then (m <<< e.toNat, 1) else (m, 1 <<< (-e).toNat)

/-- Nearest integer, a half away from zero; none without a finite value. -/
def roundAway : Binary f → Option Int
  | finite s m e _ =>
    let (n, d) := fraction m e
    let q : Int := (2 * n + d) / (2 * d)
    some (if s then -q else q)
  | _ => none

/-- The integer part and whether less than `1 / 2 ^ slackBits` was cut off, as a pair; none without
a finite value. -/
def integerPart (slackBits : Nat) : Binary f → Option (Int × Bool)
  | finite s m e _ =>
    let (n, d) := fraction m e
    let q : Int := n / d
    some (if s then -q else q, (n % d) <<< slackBits < d)
  | _ => none

end Binary

end Cutscene.Numeric
