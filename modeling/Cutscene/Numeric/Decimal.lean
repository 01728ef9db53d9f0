import Cutscene.Numeric.Binary

/-!
# Decimal text of binary numbers

Two directions. `Binary.ofDecimal` reads a decimal significand and exponent as the nearest binary
number. `Binary.write` writes a binary number with the fewest decimal digits that still read
back as it, and of those digits the nearest; `Binary.writeSignificant` writes it with a given number of
significant digits, rounded once, a tie going to the even digit.

How digits are laid out (where the point goes, when an exponent is written, what infinities are
called) is data: a `Layout`. The layouts in use are named here, and `Layout.write` is the only
function that assembles text from digits.
-/

namespace Cutscene.Numeric

/-- The decimal digits of a natural number, leading digit first. -/
def decimalDigits (n : Nat) : List Char := Nat.toDigits 10 n

/-- `num / den` times a power of ten, as a fraction. -/
def scaleTen (num den : Nat) (k : Int) : Nat × Nat :=
  if 0 ≤ k then (num * Nat.pow 10 k.toNat, den) else (num, den * Nat.pow 10 (-k).toNat)

/-- The number of digits that `num / den` has before the decimal point; zero and below count the
zeros after the point. -/
def leadingPlace (num den : Nat) : Int :=
  let gap : Int := ((decimalDigits num).length : Int) - (decimalDigits den).length
  let (n, d) := scaleTen num den (-gap)
  if n < d then gap else gap + 1

/-- Drops the zeros at the end of a significand, raising its exponent. The first argument bounds
the zeros dropped. -/
def stripZeros : Nat → Nat → Int → Nat × Int
  | 0, c, k => (c, k)
  | bound + 1, c, k => if c ≠ 0 ∧ c % 10 = 0 then stripZeros bound (c / 10) (k + 1) else (c, k)

/-- Decimal significand and exponent: the number `digits * 10 ^ exponent`. -/
structure Decimal where
  /-- The significand. -/
  digits : Nat
  /-- The power of ten. -/
  exponent : Int
deriving DecidableEq, Repr

/-! ## Reading -/

/-- The representable number nearest to `± digits * 10 ^ exponent`. A decimal far outside every
format is settled by its leading place alone. -/
def Binary.ofDecimal (f : Format) (negative : Bool) (digits : Nat) (exponent : Int) : Binary f :=
  let place := exponent + (decimalDigits digits).length
  if digits = 0 || place < -400 then .zero negative
  else if 400 < place then .infinite negative
  else
    let (n, d) := scaleTen digits 1 exponent
    .round f negative n d

/-! ## Writing -/

/-- The numbers that round to `m * 2 ^ e` lie between these two multiples of `2 ^ (e - 2)`. Below
the least significand of a binade the spacing halves. -/
def roundingBounds (f : Format) (m : Nat) (e : Int) : Nat × Nat :=
  let below := if m = 1 <<< (f.precision - 1) ∧ e ≠ f.minExp then 1 else 2
  (4 * m - below, 4 * m + 2)

/-- The one of the two neighbours of `m * 2 ^ e` on the grid of multiples of `10 ^ k` that reads
back as it, the nearer if both do. -/
def onGrid? (f : Format) (m : Nat) (e k : Int) : Option Decimal :=
  let (lowQ, highQ) := roundingBounds f m e
  let (unitN, unitD) := Binary.fraction 1 (e - 2)
  let (n, d) := scaleTen unitN unitD (-k)
  let value := 4 * m * n
  let low := lowQ * n
  let high := highQ * n
  let closed := m % 2 == 0
  let inside (c : Nat) : Bool :=
    if closed then low ≤ c * d && c * d ≤ high else low < c * d && c * d < high
  let floor := value / d
  let ceil := floor + 1
  let nearerFloor := 2 * (value - floor * d) < d
  match inside floor && floor ≠ 0, inside ceil with
  | true, true => some ⟨if nearerFloor then floor else ceil, k⟩
  | true, false => some ⟨floor, k⟩
  | false, true => some ⟨ceil, k⟩
  | false, false => none

/-- The shortest decimal that reads back as `m * 2 ^ e`, for a nonzero significand. Seventeen
digits always suffice, so the search ends within them. -/
def shortestDecimal (f : Format) (m : Nat) (e : Int) : Decimal :=
  let (n, d) := Binary.fraction m e
  let place := leadingPlace n d
  let found := (List.range 17).findSome? fun i => onGrid? f m e (place - (i + 1 : Nat))
  match found with
  | some r => let (c, k) := stripZeros 20 r.digits r.exponent; ⟨c, k⟩
  | none => ⟨n / d, 0⟩

/-- `m * 2 ^ e` to `count` significant digits, without the zeros at the end. -/
def significantDecimal (count m : Nat) (e : Int) : Decimal :=
  let (n, d) := Binary.fraction m e
  let k := leadingPlace n d - count
  let (n', d') := scaleTen n d (-k)
  let (c, k) := stripZeros (count + 1) (roundEven n' d') k
  ⟨c, k⟩

/-- How a number is written. -/
structure Layout where
  /-- Least power of ten of the leading digit that is written without an exponent. -/
  positionalFrom : Option Int
  /-- Greatest power of ten of the leading digit that is written without an exponent. -/
  positionalTo : Option Int
  /-- What follows a whole number that is written without an exponent. -/
  afterWhole : String
  /-- Whether a positive exponent has a sign and every exponent two digits. -/
  paddedExponent : Bool
  /-- How an infinity is written, apart from its sign. -/
  infinity : String
  /-- How "not a number" is written. -/
  notANumber : String
deriving Repr

namespace Layout

/-- Plain digits, whatever their number: `64`, `0.1`, `100000000000000000000`. -/
def plain : Layout := ⟨none, none, "", false, "inf", "NaN"⟩

/-- A form for diagnostics, where a whole number is still seen to be a fraction's kin: `64.0`,
`1e16`, `1e-5`. -/
def diagnostic : Layout := ⟨some (-4), some 15, ".0", false, "inf", "NaN"⟩

/-- The form of a JSON number: `0.5`, `2.0`, `1e16`, `0.00001`, `1e-6`. -/
def json : Layout := ⟨some (-5), some 15, ".0", false, "null", "null"⟩

/-- The form that scripts see: `0.5`, `2`, `1e+14`, `1e-05`. -/
def script : Layout := ⟨some (-4), some 13, "", true, "inf", "-nan"⟩

/-- The exponent part of a number whose leading digit stands for `10 ^ e`. -/
def exponentText (l : Layout) (e : Int) : String :=
  let digits := String.ofList (decimalDigits e.natAbs)
  if l.paddedExponent then
    "e" ++ (if e < 0 then "-" else "+") ++ (if digits.length < 2 then "0" ++ digits else digits)
  else "e" ++ (if e < 0 then "-" else "") ++ digits

/-- The digits of a decimal without an exponent. -/
def positional (l : Layout) (r : Decimal) : String :=
  let ds := decimalDigits r.digits
  if 0 ≤ r.exponent then String.ofList (ds ++ List.replicate r.exponent.toNat '0') ++ l.afterWhole
  else
    let after := (-r.exponent).toNat
    let padded := List.replicate (after + 1 - ds.length) '0' ++ ds
    let split := padded.length - after
    String.ofList (padded.take split) ++ "." ++ String.ofList (padded.drop split)

/-- The digits of a decimal with an exponent. -/
def scientific (l : Layout) (r : Decimal) : String :=
  let ds := decimalDigits r.digits
  let lead := r.exponent + ds.length - 1
  let tail := ds.drop 1
  String.ofList (ds.take 1) ++ (if tail.isEmpty then "" else "." ++ String.ofList tail)
    ++ l.exponentText lead

/-- The text of a decimal, with or without an exponent as its leading place asks. -/
def write (l : Layout) (r : Decimal) : String :=
  let lead := r.exponent + (decimalDigits r.digits).length - 1
  let tooSmall := l.positionalFrom.any (lead < ·)
  let tooLarge := l.positionalTo.any (· < lead)
  if r.digits ≠ 0 && (tooSmall || tooLarge) then l.scientific r else l.positional r

end Layout

namespace Binary

variable {f : Format}

/-- The text of a number, its finite value being turned into digits by `digits`. -/
def writeWith (l : Layout) (digits : Nat → Int → Decimal) : Binary f → String
  | nan => l.notANumber
  | infinite s => (if s then "-" else "") ++ l.infinity
  | finite s m e _ =>
    (if s then "-" else "") ++ l.write (if m = 0 then ⟨0, 0⟩ else digits m e)

/-- The shortest text that reads back, in a given layout. -/
def write (l : Layout) (x : Binary f) : String := x.writeWith l (shortestDecimal f)

/-- The text to `count` significant digits, in a given layout. -/
def writeSignificant (l : Layout) (count : Nat) (x : Binary f) : String :=
  x.writeWith l (significantDecimal count)

/-- The text in plain digits. -/
def text (x : Binary f) : String := x.write .plain

/-- The text for diagnostics. -/
def diagnostic (x : Binary f) : String := x.write .diagnostic

end Binary

end Cutscene.Numeric
