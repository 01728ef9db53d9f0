import Cutscene.Json.Value

/-!
# Shapes of JSON values

How plain data is read from a JSON value. Each reader gives nothing when the value has another
shape.

A record may be written with named members or as an array of its fields in their declared order;
both are `Parts`. Unknown members do no harm, a repeated field does, and so does an item too many.
A record that is one of several alternatives carries a tag: the member of a fixed name, or the
first item.
-/

namespace Cutscene.Json

open Numeric

/-! ## Values without parts -/

/-- A text. -/
def text? : Json → Option String
  | string s => some s
  | _ => none

/-- A truth value. -/
def boolean? : Json → Option Bool
  | boolean b => some b
  | _ => none

/-- An integer from `low` to `high`, ends included. -/
def integer? (low high : Int) : Json → Option Int
  | integer n => if low ≤ n ∧ n ≤ high then some n else none
  | _ => none

/-- A natural number that fits 64 bits. -/
def natural? : Json → Option Nat
  | integer n => if 0 ≤ n ∧ n < UInt64.size then some n.toNat else none
  | _ => none

/-- Any number, as the nearest of the 32-bit format. -/
def single? : Json → Option Single
  | integer n => some (.ofInt n)
  | real x => some (x.convert .single)
  | _ => none

/-- Null for nothing, or what `read` takes. -/
def optional? {α β : Type} (isNull : α → Bool) (read : α → Option β) (a : α) : Option (Option β) :=
  if isNull a then some none else (read a).map some

/-- Whether a value is null. -/
def isNull : Json → Bool
  | null => true
  | _ => false

/-! ## Records -/

/-- The parts of a record. -/
inductive Parts (α : Type) where
  /-- Members by name. -/
  | named (members : List (String × α))
  /-- The fields in their declared order. -/
  | listed (items : List α)

/-- The parts of an object or an array. -/
def parts? : Json → Option (Parts Json)
  | object members => some (.named members)
  | array items => some (.listed items)
  | _ => none

namespace Parts

variable {α β : Type}

/-- The value of each field in turn, where it is given. -/
def fields? (names : List String) : Parts α → Option (List (Option α))
  | named members =>
    names.mapM fun name =>
      match members.filter (·.1 == name) with
      | [] => some none
      | [m] => some (some m.2)
      | _ => none
  | listed items =>
    if names.length < items.length then none
    else some (items.map some ++ List.replicate (names.length - items.length) none)

/-- The tag, as `read` takes it, and the parts beside it. -/
def tag? (name : String) (read : α → Option β) : Parts α → Option (β × Parts α)
  | named members =>
    match members.filter (·.1 == name) with
    | [m] => (read m.2).map fun t => (t, named (members.filter (·.1 != name)))
    | _ => none
  | listed (first :: rest) => (read first).map fun t => (t, listed rest)
  | listed [] => none

end Parts

/-- A field that has to be given. -/
def required? {α β : Type} (read : α → Option β) (field : Option α) : Option β := field.bind read

/-- A field with a default. -/
def withDefault? {α β : Type} (default : β) (read : α → Option β) : Option α → Option β
  | none => some default
  | some a => read a

/-- One of several names by its text or, where `indexed`, by its position. -/
def choice? (indexed : Bool) (names : List String) : Json → Option String
  | string s => if s ∈ names then some s else none
  | integer n => if indexed ∧ 0 ≤ n then names[n.toNat]? else none
  | _ => none

/-- One of several names by its text, or as the name of a member that holds nothing. -/
def bareChoice? (names : List String) : Json → Option String
  | string s => if s ∈ names then some s else none
  | object [(s, null)] => if s ∈ names then some s else none
  | object [(s, object [])] => if s ∈ names then some s else none
  | _ => none

end Cutscene.Json
