import Cutscene.Numeric.Decimal
import Cutscene.Script.Syntax
import Cutscene.Text.Numeral

/-!
# Script values

Tables do not change once they are made, so a table is its content together with an identity: two
tables are equal when they are one. The same goes for functions.

A value has a JSON form unless there is a function or a text that is not UTF-8 in it. Null, as it
comes from JSON, is a value of its own beside nil, and true.
-/

namespace Cutscene.Script

open Numeric

/-- The functions that scripts find. -/
inductive Builtin where
  | yield
  | createThread
  | abort
  | makeShared
  | getShared
  | debugPrint
  | errorPrint
  | hasFlag
  | setFlag
  | unsetFlag
  | callEvent
  | logEvent
  /-- Moves the clock of the deadlines. -/
  | advance
deriving DecidableEq, Repr

/-- The name of a function. -/
def Builtin.name : Builtin → String
  | yield => "yield"
  | createThread => "create_thread"
  | abort => "abort"
  | makeShared => "make_shared"
  | getShared => "get_shared"
  | debugPrint => "dprint"
  | errorPrint => "eprint"
  | hasFlag => "has_flag"
  | setFlag => "set_flag"
  | unsetFlag => "unset_flag"
  | callEvent => "call_event"
  | logEvent => "log_event"
  | advance => "advance"

/-- The functions that every script finds. -/
def Builtin.standard : List Builtin :=
  [yield, createThread, abort, makeShared, getShared, debugPrint, errorPrint, hasFlag, setFlag,
    unsetFlag, callEvent, logEvent]

/-- A value. -/
inductive Value where
  | nil
  /-- The null of JSON. -/
  | null
  | boolean (b : Bool)
  | number (x : Double)
  | text (bytes : ByteArray)
  /-- A table of numbered values, from JSON or not. -/
  | list (id : Nat) (fromJson : Bool) (items : List Value)
  /-- A table of named values, none of them nil. -/
  | record (id : Nat) (members : List (String × Value))
  | closure (id : Nat) (body : List Statement)
  | builtin (b : Builtin)
deriving Inhabited

namespace Value

/-- A text value. -/
def ofString (s : String) : Value := .text s.toUTF8

/-- Whether a value counts as true. -/
def truthy : Value → Bool
  | nil => false
  | boolean b => b
  | _ => true

/-- Whether a value is nil. -/
def isNil : Value → Bool
  | nil => true
  | _ => false

/-- Whether a value is a function. -/
def isFunction : Value → Bool
  | closure _ _ => true
  | builtin _ => true
  | _ => false

/-- A number as an integer of 64 bits, if it is one but for less than `2 ^ -52`. -/
def integer? (x : Double) : Option Int :=
  match x.integerPart 52 with
  | some (n, true) => if Int64.minValue.toInt ≤ n ∧ n ≤ Int64.maxValue.toInt then some n else none
  | _ => none

/-- What kind of value it is, in words. -/
def typeName : Value → String
  | nil => "nil"
  | null => "lightuserdata"
  | boolean _ => "boolean"
  | number x => if (integer? x).isSome then "integer" else "number"
  | text _ => "string"
  | list _ _ _ => "table"
  | record _ _ => "table"
  | closure _ _ => "function"
  | builtin _ => "function"

/-! ## Texts -/

/-- The text of a number. -/
def numberText (x : Double) : String := x.writeSignificant .script 14

/-- The bytes of a text, or of the text of a number. -/
def bytes? : Value → Option ByteArray
  | text bytes => some bytes
  | number x => some (numberText x).toUTF8
  | _ => none

/-- A text that is UTF-8, or the text of a number. -/
def string? (v : Value) : Option String := v.bytes?.bind String.fromUTF8?

/-- An identity as it is shown. -/
def address (id : Nat) : String := "0x" ++ String.ofList (Nat.toDigits 16 (UInt32.size + 32 * id))

/-- The description of a value. -/
def describe : Value → ByteArray
  | nil => "nil".toUTF8
  | null => "userdata: (nil)".toUTF8
  | boolean b => (if b then "true" else "false").toUTF8
  | number x => (numberText x).toUTF8
  | text bytes => bytes
  | list id _ _ => ("table: " ++ address id).toUTF8
  | record id _ => ("table: " ++ address id).toUTF8
  | closure id _ => ("function: " ++ address id).toUTF8
  | builtin b => ("function: builtin: " ++ b.name).toUTF8

/-! ## Operators -/

/-- The value of a hexadecimal digit. -/
def hexDigit? (c : Char) : Option Nat :=
  if c.isDigit then some (c.toNat - '0'.toNat)
  else if 'a' ≤ c ∧ c ≤ 'f' then some (c.toNat - 'a'.toNat + 10)
  else if 'A' ≤ c ∧ c ≤ 'F' then some (c.toNat - 'A'.toNat + 10)
  else none

/-- The number that hexadecimal digits stand for. -/
def hexadecimal? (cs : List Char) : Option Nat :=
  if cs.isEmpty then none
  else cs.foldl (fun n c => do return 16 * (← n) + (← hexDigit? c)) (some 0)

/-- The blanks that may stand around a numeral: those of ASCII. -/
def isAsciiBlank (c : Char) : Bool := c = ' ' || (9 ≤ c.toNat && c.toNat ≤ 13)

/-- The number that a text reads as: decimal, or hexadecimal after `0x`. -/
def numeral? (s : String) : Option Double :=
  let cs := s.toList.dropWhile isAsciiBlank
  let cs := (cs.reverse.dropWhile isAsciiBlank).reverse
  let (negative, digits) := Text.takeSign cs
  match digits with
  | '0' :: x :: rest =>
    if x = 'x' ∨ x = 'X' then
      (hexadecimal? rest).map fun n => if negative then -.ofNat n else .ofNat n
    else Text.readFraction? .double (String.ofList cs)
  | _ => Text.readFraction? .double (String.ofList cs)

/-- A number, or the number that a text reads as. -/
def double? : Value → Option Double
  | number x => some x
  | text bytes => (String.fromUTF8? bytes).bind numeral?
  | _ => none

/-- Whether two values are equal. -/
def same : Value → Value → Bool
  | nil, nil => true
  | null, null => true
  | boolean a, boolean b => a = b
  | number x, number y => x.eqv y
  | text a, text b => a.data = b.data
  | list a _ _, list b _ _ => a = b
  | record a _, record b _ => a = b
  | closure a _, closure b _ => a = b
  | builtin a, builtin b => a = b
  | _, _ => false

/-- Whether one list of bytes comes before another. -/
def bytesLess : List UInt8 → List UInt8 → Bool
  | [], [] => false
  | [], _ :: _ => true
  | _ :: _, [] => false
  | a :: as, b :: bs => a < b || (a = b && bytesLess as bs)

/-- Whether one value comes before another; only numbers and texts are ordered. -/
def less? : Value → Value → Option Bool
  | number x, number y => some (x.lt y)
  | text a, text b => some (bytesLess a.toList b.toList)
  | _, _ => none

/-- The value of an operator; none is an error. -/
def operate? (op : BinaryOperator) (a b : Value) : Option Value :=
  match op with
  | .add => do return number ((← a.double?) + (← b.double?))
  | .divide => do return number ((← a.double?) / (← b.double?))
  | .less => (a.less? b).map boolean
  | .equal => some (boolean (a.same b))
  | .concat => do return text ((← a.bytes?) ++ (← b.bytes?))

/-- What a value holds under a key; none is an error. -/
def member? (v key : Value) : Option Value :=
  match v, key with
  | list _ _ items, number x =>
    match x.integerPart 52 with
    | some (n, _) =>
      if x.eqv (.ofInt n) && 0 < n then some (items.getD (n.toNat - 1) nil) else some nil
    | none => some nil
  | list _ _ _, _ => some nil
  | record _ members, text bytes =>
    some ((members.find? fun m => m.1.toUTF8 == bytes).elim nil (·.2))
  | record _ _, _ => some nil
  | text _, _ => some nil
  | _, _ => none

/-! ## JSON -/

/-- The room that a table of so many listed values has: four binary digits are kept, and the rest is
rounded up. -/
def room : Nat → Nat → Nat
  | 0, n => n
  | fuel + 1, n => if n < 16 then n else 2 * room fuel ((n + 1) / 2)

/-- The middle of a table that is nil at `high` and not at `low` is looked at until they meet. -/
def bisect (items : List Value) : Nat → Nat → Nat → Nat
  | 0, low, _ => low
  | fuel + 1, low, high =>
    if high ≤ low + 1 then low
    else
      let middle := (low + high) / 2
      if (items.getD (middle - 1) nil).isNil then bisect items fuel low middle
      else bisect items fuel middle high

/-- The length of a table: a number after which nil follows. -/
def border (items : List Value) : Nat :=
  let size := room items.length items.length
  if size = 0 then 0
  else if (items.getD (size - 1) nil).isNil then bisect items size 0 size
  else size

mutual

/-- The JSON form of a value, if it has one. -/
def toJson? : Value → Option Json
  | nil => some .null
  | null => some .null
  | boolean b => some (.boolean b)
  | number x =>
    some (match integer? x with
      | some n => .integer n
      | none => if x.isFinite then .real x else .null)
  | text bytes => (String.fromUTF8? bytes).map .string
  | list _ fromJson items =>
    if fromJson || 0 < border items then (itemsToJson? items).map .array
    else if items.all isNil then some (.object [])
    else none
  | record _ members => (membersToJson? members).map .object
  | closure _ _ => none
  | builtin _ => none

/-- The JSON forms of the values before the first nil. -/
def itemsToJson? : List Value → Option (List Json)
  | [] => some []
  | v :: rest =>
    if v.isNil then some []
    else do
      let j ← toJson? v
      let js ← itemsToJson? rest
      some (j :: js)

/-- The JSON forms of named values. -/
def membersToJson? : List (String × Value) → Option (List (String × Json))
  | [] => some []
  | (name, v) :: rest => do
    let j ← toJson? v
    let js ← membersToJson? rest
    some ((name, j) :: js)

end

mutual

/-- The value of a JSON value, its tables numbered from `next` on, and the next number. -/
def ofJson (next : Nat) : Json → Value × Nat
  | .null => (null, next)
  | .boolean b => (boolean b, next)
  | .integer n => (number (.ofInt n), next)
  | .real x => (number x, next)
  | .string s => (ofString s, next)
  | .array items =>
    let (vs, next') := ofItems (next + 1) items
    (list next true vs, next')
  | .object members =>
    let (vs, next') := ofMembers (next + 1) members
    (record next vs, next')

/-- `ofJson` on each item. -/
def ofItems (next : Nat) : List Json → List Value × Nat
  | [] => ([], next)
  | j :: rest =>
    let (v, next) := ofJson next j
    let (vs, next) := ofItems next rest
    (v :: vs, next)

/-- `ofJson` on each member. -/
def ofMembers (next : Nat) : List (String × Json) → List (String × Value) × Nat
  | [] => ([], next)
  | (name, j) :: rest =>
    let (v, next) := ofJson next j
    let (vs, next) := ofMembers next rest
    ((name, v) :: vs, next)

end

end Value

end Cutscene.Script
