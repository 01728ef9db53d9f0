import Cutscene.Json.Value

/-!
# Tokens of JSON text

A text is read once, character by character, by a machine whose state is the token under way
(`Lexing`). Each character may finish tokens and leads to the next state, so the tokens of a text
are one fold over its characters.

A reader may want the value of a token or may only want to get past it. Some tokens have no value
and can still be passed: a number beyond the largest `Double`, a string with half a surrogate pair.
They are `unfit`. A `broken` token cannot be passed, and nothing after it is read.

## Numbers

A significand keeps the leading digits that fit 64 bits; what is dropped counts in the exponent
only. Its value is the significand as a `Double`, multiplied or divided once by a power of ten.
-/

namespace Cutscene.Json

open Numeric

/-- What is wrong with a text as JSON. -/
inductive Flaw where
  /-- Some character cannot stand where it stands. -/
  | malformed
  /-- The text ends inside the value. -/
  | truncated
deriving DecidableEq, Repr, Inhabited

/-- A token. -/
inductive Token where
  | openArray
  | closeArray
  | openObject
  | closeObject
  | comma
  | colon
  /-- A number, a string, or one of the three names. -/
  | scalar (value : Json)
  /-- A number or a string that has no value but can be passed. -/
  | unfit (isString : Bool) (flaw : Flaw)
  /-- A token that cannot be passed. The flaws are those met by a reader of values and by one that
  only passes. -/
  | broken (isString : Bool) (flaw : Flaw) (passing : Flaw)

/-! ## Numbers -/

/-- The digits of a number so far. -/
structure Figures where
  negative : Bool
  /-- The digits kept. -/
  significand : Nat
  /-- The power of ten of the last digit kept. -/
  exponent : Int
  /-- Whether some digit before the point has been dropped. -/
  dropped : Bool
  /-- Whether digits after the point are dropped. -/
  full : Bool

/-- The first value that 64 bits do not hold. -/
def wordLimit : Nat := UInt64.size

/-- A digit before the point. -/
def Figures.digit (x : Figures) (d : Nat) : Figures :=
  if x.dropped || wordLimit ≤ 10 * x.significand + d then
    { x with exponent := x.exponent + 1, dropped := true }
  else { x with significand := 10 * x.significand + d }

/-- A digit after the point. -/
def Figures.place (x : Figures) (d : Nat) : Figures :=
  if x.full || wordLimit ≤ 10 * x.significand + d then { x with full := true }
  else { x with significand := 10 * x.significand + d, exponent := x.exponent - 1 }

/-- A `Double` divided by `10 ^ 308` while the exponent is below the powers of ten in use; the first
argument bounds the divisions, of which three leave nothing. -/
def shrink : Nat → Double → Int → Double × Int
  | 0, x, e => (x, e)
  | bound + 1, x, e =>
    if e < -308 ∧ ¬ x.isZero then
      shrink bound (x / .ofDecimal .double false 1 308) (e + 308)
    else (x, e)

/-- A significand times a power of ten, without its sign; none if it is too large. -/
def Figures.magnitude? (significand : Nat) (exponent : Int) : Option Double :=
  let (x, e) := shrink 3 (.ofNat significand) exponent
  if x.isZero then some x
  else if 308 < e then none
  else if 0 ≤ e then
    let y := x * .ofDecimal .double false 1 e
    if y.isFinite then some y else none
  else some (x / .ofDecimal .double false 1 (-e))

/-- The value of a number with a fraction or an exponent. -/
def Figures.real (x : Figures) (exponent : Int) : Token :=
  match magnitude? x.significand exponent with
  | some y => .scalar (.real (if x.negative then -y else y))
  | none => .unfit false .malformed

/-- The value of a number without fraction and exponent. -/
def Figures.whole (x : Figures) : Token :=
  if x.dropped then x.real x.exponent
  else if !x.negative then .scalar (.integer x.significand)
  else if x.significand ≠ 0 ∧ 2 * x.significand ≤ wordLimit then .scalar (.integer (-x.significand))
  else .scalar (.real (-.ofNat x.significand))

/-- The first value that an exponent's 32 bits do not hold. -/
def exponentLimit : Nat := 1 <<< 31

/-- The value of a number with an exponent. -/
def Figures.scaled (x : Figures) (negative : Bool) (exponent : Nat) : Token :=
  if exponentLimit ≤ exponent then
    if x.significand ≠ 0 ∧ ¬ negative then .unfit false .malformed
    else .scalar (.real (.zero x.negative))
  else x.real (x.exponent + (if negative then -(exponent : Int) else exponent))

/-- The part of a number under way. -/
inductive NumberPart where
  /-- A minus sign was read. -/
  | sign
  /-- A leading zero was read. -/
  | zero (x : Figures)
  /-- Digits before the point. -/
  | whole (x : Figures)
  /-- The point was read. -/
  | point (x : Figures)
  /-- Digits after the point. -/
  | fraction (x : Figures)
  /-- The letter before an exponent was read. -/
  | mark (x : Figures)
  /-- The sign of an exponent was read. -/
  | markSign (x : Figures) (negative : Bool)
  /-- Digits of the exponent. -/
  | exponent (x : Figures) (negative : Bool) (value : Nat)

/-- The token of a number that ends here. -/
def NumberPart.finish : NumberPart → Option Token
  | sign => none
  | zero x => some x.whole
  | whole x => some x.whole
  | point _ => none
  | fraction x => some (x.real x.exponent)
  | mark _ => none
  | markSign .. => none
  | exponent x negative value => some (x.scaled negative value)

/-- The value of a decimal digit. -/
def digit? (c : Char) : Option Nat :=
  if '0' ≤ c ∧ c ≤ '9' then some (c.toNat - '0'.toNat) else none

/-- How a number goes on: with another part, with its end before this character, or not at all. -/
inductive NumberStep where
  | more (part : NumberPart)
  | ended (token : Token)
  | fail

/-- What may follow the digits before the point. -/
def NumberPart.afterWhole (x : Figures) (c : Char) : NumberStep :=
  if c = '.' then .more (.point x)
  else if c = 'e' ∨ c = 'E' then .more (.mark x)
  else .ended x.whole

/-- One character of a number. -/
def NumberPart.step (part : NumberPart) (c : Char) : NumberStep :=
  match part, digit? c with
  | sign, some 0 => .more (.zero ⟨true, 0, 0, false, false⟩)
  | sign, some d => .more (.whole ⟨true, d, 0, false, false⟩)
  | sign, none => .fail
  | zero _, some _ => .fail
  | zero x, none => afterWhole x c
  | whole x, some d => .more (.whole (x.digit d))
  | whole x, none => afterWhole x c
  | point x, some d => .more (.fraction (x.place d))
  | point _, none => .fail
  | fraction x, some d => .more (.fraction (x.place d))
  | fraction x, none =>
    if c = 'e' ∨ c = 'E' then .more (.mark x) else .ended (x.real x.exponent)
  | mark x, some d => .more (.exponent x false d)
  | mark x, none =>
    if c = '+' then .more (.markSign x false)
    else if c = '-' then .more (.markSign x true) else .fail
  | markSign x negative, some d => .more (.exponent x negative d)
  | markSign .., none => .fail
  | exponent x negative value, some d =>
    .more (.exponent x negative (min exponentLimit (10 * value + d)))
  | exponent x negative value, none => .ended (x.scaled negative value)

/-! ## Strings -/

/-- Where in a string the reading is. -/
inductive StringPart where
  /-- Between two characters. -/
  | plain
  /-- After a backslash. -/
  | escape
  /-- Inside the four digits of a code unit: the upper half of a pair waiting for its lower half,
  the bytes read, and the value unless a byte was no digit. -/
  | unit (upper : Option Nat) (bytes : Nat) (value : Option Nat)
  /-- After an upper half. -/
  | upper (unit : Nat)
  /-- After an upper half and a backslash. -/
  | upperEscape (unit : Nat)

/-- A string under way: its text so far, unless it has none. -/
structure Quotation where
  text : String
  flaw : Option Flaw
  part : StringPart

/-- The value of a hexadecimal digit. -/
def hexValue? (c : Char) : Option Nat :=
  if '0' ≤ c ∧ c ≤ '9' then some (c.toNat - '0'.toNat)
  else if 'a' ≤ c ∧ c ≤ 'f' then some (c.toNat - 'a'.toNat + 10)
  else if 'A' ≤ c ∧ c ≤ 'F' then some (c.toNat - 'A'.toNat + 10)
  else none

/-- The character that a one-letter escape stands for. -/
def escaped? (c : Char) : Option Char :=
  if c = '"' ∨ c = '\\' ∨ c = '/' then some c
  else if c = 'b' then some (Char.ofNat 8)
  else if c = 'f' then some (Char.ofNat 12)
  else if c = 'n' then some '\n'
  else if c = 'r' then some '\r'
  else if c = 't' then some '\t'
  else none

/-- How a string goes on. -/
inductive StringStep where
  | more (q : Quotation)
  | ended (token : Token)
  | fail

namespace Quotation

/-- The string with a character at its end. -/
def push (q : Quotation) (c : Char) : Quotation := { q with text := q.text.push c, part := .plain }

/-- The string that has lost its value. -/
def spoil (q : Quotation) : Quotation :=
  { q with flaw := some (q.flaw.getD .malformed), part := .plain }

/-- A character between two characters. -/
def plainStep (q : Quotation) (c : Char) : StringStep :=
  if c = '"' then
    .ended (match q.flaw with | none => .scalar (.string q.text) | some f => .unfit true f)
  else if c = '\\' then .more { q with part := .escape }
  else if c.toNat < 32 then .fail
  else .more (q.push c)

/-- The character after a backslash. -/
def escapeStep (q : Quotation) (c : Char) : StringStep :=
  if c = 'u' then .more { q with part := .unit none 0 (some 0) }
  else match escaped? c with
  | some e => .more (q.push e)
  | none => .fail

/-- The end of four digits. A lower half needs an upper half before it and an upper half a lower
half after it. -/
def unitEnd (q : Quotation) (upper : Option Nat) (value : Nat) : Quotation :=
  match upper with
  | some u =>
    if 0xDC00 ≤ value ∧ value ≤ 0xDFFF then
      q.push (Char.ofNat (0x10000 + (u - 0xD800) * 0x400 + (value - 0xDC00)))
    else q.spoil
  | none =>
    if 0xDC00 ≤ value ∧ value ≤ 0xDFFF then q.spoil
    else if 0xD800 ≤ value ∧ value ≤ 0xDBFF then { q with part := .upper value }
    else q.push (Char.ofNat value)

/-- One character of a string. -/
def step (q : Quotation) (c : Char) : StringStep :=
  match q.part with
  | .plain => q.plainStep c
  | .escape => q.escapeStep c
  | .unit upper bytes value =>
    let bytes := bytes + c.utf8Size
    let value := value.bind fun v => (hexValue? c).map (16 * v + ·)
    if bytes < 4 then .more { q with part := .unit upper bytes value }
    else match value with
    | some v => .more (q.unitEnd upper v)
    | none => .fail
  | .upper u =>
    if c = '\\' then .more { q with part := .upperEscape u } else q.spoil.plainStep c
  | .upperEscape u =>
    if c = 'u' then .more { q with part := .unit (some u) 0 (some 0) } else q.spoil.escapeStep c

end Quotation

/-! ## The machine -/

/-- The token under way. -/
inductive Lexing where
  | between
  /-- One of the three names, with the characters still to come. -/
  | name (rest : List Char) (value : Json)
  | number (part : NumberPart)
  | string (q : Quotation)
  /-- Nothing more is read. -/
  | halted

/-- Whether a character may stand between tokens. -/
def isGap (c : Char) : Bool := c = ' ' || c = '\n' || c = '\t' || c = '\r'

/-- The tokens so far and the state after a character between tokens. -/
def Lexing.start (out : Array Token) (c : Char) : Lexing × Array Token :=
  if isGap c then (.between, out)
  else if c = '[' then (.between, out.push .openArray)
  else if c = ']' then (.between, out.push .closeArray)
  else if c = '\x7b' then (.between, out.push .openObject)
  else if c = '\x7d' then (.between, out.push .closeObject)
  else if c = ',' then (.between, out.push .comma)
  else if c = ':' then (.between, out.push .colon)
  else if c = '"' then (.string ⟨"", none, .plain⟩, out)
  else if c = 'n' then (.name ['u', 'l', 'l'] .null, out)
  else if c = 't' then (.name ['r', 'u', 'e'] (.boolean true), out)
  else if c = 'f' then (.name ['a', 'l', 's', 'e'] (.boolean false), out)
  else if c = '-' then (.number .sign, out)
  else match digit? c with
  | some 0 => (.number (.zero ⟨false, 0, 0, false, false⟩), out)
  | some d => (.number (.whole ⟨false, d, 0, false, false⟩), out)
  | none => (.halted, out.push (.broken false .malformed .malformed))

/-- One character. -/
def Lexing.step : Lexing × Array Token → Char → Lexing × Array Token
  | (.between, out), c => start out c
  | (.halted, out), _ => (.halted, out)
  | (.name rest value, out), c =>
    match rest with
    | [d] => if c = d then (.between, out.push (.scalar value)) else
      (.halted, out.push (.broken false .malformed .malformed))
    | d :: more => if c = d then (.name more value, out) else
      (.halted, out.push (.broken false .malformed .malformed))
    | [] => start (out.push (.scalar value)) c
  | (.number part, out), c =>
    match part.step c with
    | .more next => (.number next, out)
    | .ended token => start (out.push token) c
    | .fail => (.halted, out.push (.broken false .malformed .malformed))
  | (.string q, out), c =>
    match q.step c with
    | .more next => (.string next, out)
    | .ended token => (.between, out.push token)
    | .fail => (.halted, out.push (.broken true .malformed .malformed))

/-- The end of the text. -/
def Lexing.finish : Lexing × Array Token → Array Token
  | (.between, out) => out
  | (.halted, out) => out
  | (.name .., out) => out.push (.broken false .truncated .truncated)
  | (.number part, out) =>
    match part.finish with
    | some token => out.push token
    | none => out.push (.broken false .truncated .malformed)
  | (.string q, out) => out.push (.broken true (q.flaw.getD .truncated) .truncated)

/-- The tokens of a text. -/
def tokens (text : String) : Array Token :=
  Lexing.finish (text.foldl Lexing.step (.between, #[]))

end Cutscene.Json
