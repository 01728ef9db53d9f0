import Cutscene.Numeric.Decimal

/-!
# JSON values

A JSON value as it stands in a document: the members of an object keep their order and may repeat.
`Json.canonical` is the value as a reader of plain JSON has it, where the members are sorted by
name and of repeated members the last one counts.

A number is an integer if it is written as one and fits 64 bits, signed or not; every other number
is a `Double`.
-/

namespace Cutscene

open Numeric

/-- A JSON value. -/
inductive Json where
  | null
  | boolean (b : Bool)
  | integer (n : Int)
  | real (x : Double)
  | string (s : String)
  | array (items : List Json)
  | object (members : List (String × Json))
deriving Inhabited, BEq

namespace Json

/-- Puts a member into a list sorted by name, in place of one of the same name. -/
def insertMember {α : Type} (name : String) (value : α) :
    List (String × α) → List (String × α)
  | [] => [(name, value)]
  | (n, v) :: rest =>
    if n = name then (name, value) :: rest
    else if name < n then (name, value) :: (n, v) :: rest
    else (n, v) :: insertMember name value rest

/-- Members sorted by name; of repeated members the last one counts. -/
def sortMembers {α : Type} (members : List (String × α)) : List (String × α) :=
  members.foldl (fun sorted m => insertMember m.1 m.2 sorted) []

mutual

/-- The value with the members of every object sorted and unique. -/
def canonical : Json → Json
  | array items => array (canonicalItems items)
  | object members => object (sortMembers (canonicalMembers members))
  | other => other

/-- `canonical` on each item. -/
def canonicalItems : List Json → List Json
  | [] => []
  | j :: rest => canonical j :: canonicalItems rest

/-- `canonical` on each member. -/
def canonicalMembers : List (String × Json) → List (String × Json)
  | [] => []
  | (name, j) :: rest => (name, canonical j) :: canonicalMembers rest

end

/-- The last member of a name. -/
def member? (name : String) : Json → Option Json
  | object members => (members.reverse.find? (·.1 == name)).map (·.2)
  | _ => none

/-- An object with its members sorted. -/
def ofMembers (members : List (String × Json)) : Json := object (sortMembers members)

/-- A text or null. -/
def ofText? : Option String → Json
  | some s => string s
  | none => null

/-- A list of texts. -/
def ofTexts (ss : List String) : Json := array (ss.map string)

/-- A number of the 32-bit format as a JSON number; what is not finite has no number and is
null. -/
def ofSingle (x : Single) : Json := if x.isFinite then real (x.convert .double) else null

end Json

end Cutscene
