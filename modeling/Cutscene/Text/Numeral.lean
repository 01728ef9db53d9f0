import Cutscene.Numeric.Decimal

/-!
# Numerals in text

Unsigned integers and decimal fractions as they are typed on a command line. An unsigned integer
is an optional plus sign and decimal digits; the first character that spoils it, read from the
left, names the fault. A fraction has an optional sign, digits with at most one point, and an
optional exponent, or is a name of an infinity or of "not a number".
-/

namespace Cutscene.Text

open Cutscene.Numeric

/-- Why a text is not an unsigned integer. -/
inductive NumeralFault where
  /-- There is no character. -/
  | empty
  /-- Some character is not a digit. -/
  | invalidDigit
  /-- The digits exceed the largest value. -/
  | tooLarge
deriving DecidableEq, Repr

/-- The wording of a fault. -/
def NumeralFault.message : NumeralFault → String
  | empty => "cannot parse integer from empty string"
  | invalidDigit => "invalid digit found in string"
  | tooLarge => "number too large to fit in target type"

/-- The value of a decimal digit. -/
def digitValue? (c : Char) : Option Nat :=
  if '0' ≤ c ∧ c ≤ '9' then some (c.toNat - '0'.toNat) else none

/-- Reads digits below `limit` onto a value, from the left. -/
def readDigits (limit : Nat) : Nat → List Char → Except NumeralFault Nat
  | n, [] => .ok n
  | n, c :: rest =>
    match digitValue? c with
    | none => .error .invalidDigit
    | some d => if limit ≤ 10 * n + d then .error .tooLarge else readDigits limit (10 * n + d) rest

/-- Reads an unsigned integer below `limit`. -/
def readUnsigned (limit : Nat) : List Char → Except NumeralFault Nat
  | [] => .error .empty
  | ['+'] => .error .invalidDigit
  | '+' :: rest => readDigits limit 0 rest
  | cs => readDigits limit 0 cs

/-- The value of a list of decimal digits. -/
def digitsValue (ds : List Char) : Nat := ds.foldl (fun n c => 10 * n + (c.toNat - '0'.toNat)) 0

/-- A sign at the front, and what follows it. -/
def takeSign : List Char → Bool × List Char
  | '-' :: rest => (true, rest)
  | '+' :: rest => (false, rest)
  | cs => (false, cs)

/-- Reads an exponent part to its end; nothing at all stands for zero. -/
def readExponent? : List Char → Option Int
  | [] => some 0
  | c :: rest =>
    if c = 'e' ∨ c = 'E' then
      let (negative, ds) := takeSign rest
      if ds.isEmpty || !ds.all Char.isDigit then none
      else some (if negative then -(digitsValue ds : Int) else digitsValue ds)
    else none

/-- Reads a decimal fraction as the nearest number of a format. -/
def readFraction? (f : Format) (s : String) : Option (Binary f) :=
  let (negative, cs) := takeSign s.toList
  let name := String.ofList (cs.map Char.toLower)
  if name = "inf" || name = "infinity" then some (.infinite negative)
  else if name = "nan" then some .nan
  else
    let whole := cs.takeWhile Char.isDigit
    let afterWhole := cs.dropWhile Char.isDigit
    let (part, rest) := match afterWhole with
      | '.' :: more => (more.takeWhile Char.isDigit, more.dropWhile Char.isDigit)
      | more => ([], more)
    if whole.isEmpty && part.isEmpty then none
    else (readExponent? rest).map fun e =>
      .ofDecimal f negative (digitsValue (whole ++ part)) (e - part.length)

end Cutscene.Text
