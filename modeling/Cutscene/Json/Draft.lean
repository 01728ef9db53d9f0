import Cutscene.Json.Token

/-!
# Drafts of JSON documents

A reader that wants a document of a certain shape goes through the text once, and the first thing
wrong, be it the text or the shape, is what it reports. To keep reading apart from shapes, the
tokens of a text are first put together into a `Draft`: the document as far as it can be read, with
a flaw in the place where the text fails. Going through a draft in order then meets the flaws and
the shape errors in the order of the text.

A value that is nested deeper than `maxDepth` is unfit but can be passed.
-/

namespace Cutscene.Json

/-- A document as far as it can be read. -/
inductive Draft where
  /-- A value without parts. -/
  | scalar (value : Json)
  /-- An array; the flaw is what follows the last item in place of an end. -/
  | array (items : List Draft) (stop : Option Flaw)
  /-- An object; a name may itself be flawed. -/
  | object (members : List (Except Flaw String × Draft)) (stop : Option Flaw)
  /-- A value that cannot be read; `beyond` is the flaw met by a reader that only passes it. -/
  | unfit (flaw : Flaw) (beyond : Option Flaw)
deriving Inhabited

/-- The greatest depth of a value that is read. -/
def maxDepth : Nat := 127

mutual

/-- The flaw met by a reader that only passes a value. -/
def Draft.passing : Draft → Option Flaw
  | .scalar _ => none
  | .array items stop => (Draft.passingItems items).or stop
  | .object members stop => (Draft.passingMembers members).or stop
  | .unfit _ beyond => beyond

/-- The first flaw met in items. -/
def Draft.passingItems : List Draft → Option Flaw
  | [] => none
  | d :: rest => (Draft.passing d).or (Draft.passingItems rest)

/-- The first flaw met in members. -/
def Draft.passingMembers : List (Except Flaw String × Draft) → Option Flaw
  | [] => none
  | (_, d) :: rest => (Draft.passing d).or (Draft.passingMembers rest)

end

/-! ## Assembly -/

/-- An array or an object whose end is still to come, its parts in reverse. -/
inductive Container where
  | array (items : List Draft)
  | object (members : List (Except Flaw String × Draft)) (name : Option (Except Flaw String))

/-- What has to come next. -/
inductive Awaited where
  | value
  /-- An item, or the end of an array that has none. -/
  | firstItem
  | name
  /-- A name, or the end of an object that has no member. -/
  | firstName
  | colon
  /-- A comma or the end of the container. -/
  | separator
  /-- The document is complete. -/
  | nothing
deriving DecidableEq

/-- A document under way. -/
structure Assembly where
  /-- The containers around the present place, the innermost first. -/
  containers : List Container
  awaited : Awaited
  /-- The document, once complete. -/
  result : Option Draft
  /-- What is wrong with what follows the document. -/
  trailing : Option Flaw
  /-- Whether nothing more is read. -/
  halted : Bool

namespace Assembly

/-- A container with one part more. -/
def addTo (d : Draft) : Container → Container
  | .array items => .array (d :: items)
  | .object members (some name) => .object ((name, d) :: members) none
  | .object members none => .object members none

/-- A container with its end, or with a flaw in its place. -/
def conclude (depth : Nat) (stop : Option Flaw) (c : Container) : Draft :=
  let d := match c with
    | .array items => Draft.array items.reverse stop
    | .object members _ => Draft.object members.reverse stop
  if maxDepth < depth then .unfit .malformed d.passing else d

/-- A complete value at the present place. -/
def place (a : Assembly) (d : Draft) : Assembly :=
  match a.containers with
  | [] => { a with result := some d, awaited := .nothing }
  | c :: outer => { a with containers := addTo d c :: outer, awaited := .separator }

/-- The end of the innermost container. -/
def close (a : Assembly) : Assembly :=
  match a.containers with
  | [] => a
  | c :: outer => place { a with containers := outer } (conclude (outer.length + 1) none c)

/-- Ends every container with a flaw. -/
def collapse (flaw : Flaw) : Option Draft → List Container → Draft
  | d?, [] => d?.getD (.unfit flaw (some flaw))
  | d?, c :: outer =>
    let c := match d? with
      | some d => addTo d c
      | none => c
    collapse flaw (some (conclude (outer.length + 1) (some flaw) c)) outer

/-- Stops at a flaw, after a last value if there is one. -/
def halt (a : Assembly) (flaw : Flaw) (d? : Option Draft) : Assembly :=
  { a with containers := [], result := some (collapse flaw d? a.containers), halted := true }

/-- Stops at a flaw in place of a value. -/
def haltAtValue (a : Assembly) (flaw : Flaw) : Assembly :=
  a.halt flaw (some (.unfit flaw (some flaw)))

/-- Starts a container. -/
def enter (a : Assembly) (c : Container) (awaited : Awaited) : Assembly :=
  { a with containers := c :: a.containers, awaited := awaited }

/-- A token in place of a value. -/
def valueStep (a : Assembly) : Token → Assembly
  | .openArray => a.enter (.array []) .firstItem
  | .openObject => a.enter (.object [] none) .firstName
  | .scalar v => a.place (.scalar v)
  | .unfit _ flaw => a.place (.unfit flaw none)
  | .broken _ flaw passing => a.halt flaw (some (.unfit flaw (some passing)))
  | _ => a.haltAtValue .malformed

/-- The name of the next member. -/
def named (a : Assembly) (name : Except Flaw String) : Assembly :=
  match a.containers with
  | .object members _ :: outer =>
    { a with containers := .object members (some name) :: outer, awaited := .colon }
  | _ => a.halt .malformed none

/-- A token in place of a name. -/
def nameStep (a : Assembly) : Token → Assembly
  | .scalar (.string s) => a.named (.ok s)
  | .unfit true flaw => a.named (.error flaw)
  | .broken true flaw passing =>
    (a.named (.error flaw)).halt passing (some (.unfit passing (some passing)))
  | _ => a.halt .malformed none

/-- A token after a complete part of a container. -/
def separatorStep (a : Assembly) (t : Token) : Assembly :=
  match a.containers, t with
  | .array _ :: _, .comma => { a with awaited := .value }
  | .array _ :: _, .closeArray => a.close
  | .object .. :: _, .comma => { a with awaited := .name }
  | .object .. :: _, .closeObject => a.close
  | _, _ => a.halt .malformed none

/-- One token. -/
def step (a : Assembly) (t : Token) : Assembly :=
  if a.halted then a
  else match a.awaited, t with
  | .firstItem, .closeArray => a.close
  | .firstItem, t => a.valueStep t
  | .value, t => a.valueStep t
  | .firstName, .closeObject => a.close
  | .firstName, t => a.nameStep t
  | .name, t => a.nameStep t
  | .colon, .colon => { a with awaited := .value }
  | .colon, _ => a.haltAtValue .malformed
  | .separator, t => a.separatorStep t
  | .nothing, _ => { a with trailing := some .malformed, halted := true }

/-- The end of the text. -/
def finish (a : Assembly) : Assembly :=
  if a.halted then a
  else match a.awaited with
  | .value | .colon => a.haltAtValue .truncated
  | .firstItem | .firstName | .name | .separator => a.halt .truncated none
  | .nothing => a

end Assembly

/-- A document and what is wrong with the text after it. -/
structure Document where
  draft : Draft
  trailing : Option Flaw

/-- The document in a text. -/
def Document.ofText (text : String) : Document :=
  let a := ((tokens text).foldl Assembly.step ⟨[], .value, none, none, false⟩).finish
  ⟨a.result.getD (.unfit .truncated (some .truncated)), a.trailing⟩

mutual

/-- The value of a draft without flaws, or its first flaw. -/
def Draft.value : Draft → Except Flaw Json
  | .scalar v => .ok v
  | .array items stop => do
    let items ← Draft.valueItems items
    match stop with
    | none => .ok (.array items)
    | some flaw => .error flaw
  | .object members stop => do
    let members ← Draft.valueMembers members
    match stop with
    | none => .ok (.object members)
    | some flaw => .error flaw
  | .unfit flaw _ => .error flaw

/-- The values of items. -/
def Draft.valueItems : List Draft → Except Flaw (List Json)
  | [] => .ok []
  | d :: rest => do
    let v ← Draft.value d
    let vs ← Draft.valueItems rest
    .ok (v :: vs)

/-- The names and values of members. -/
def Draft.valueMembers :
    List (Except Flaw String × Draft) → Except Flaw (List (String × Json))
  | [] => .ok []
  | (name, d) :: rest => do
    let name ← name
    let v ← Draft.value d
    let vs ← Draft.valueMembers rest
    .ok ((name, v) :: vs)

end

/-- The value that a text writes. -/
def ofString? (text : String) : Except Flaw Json :=
  let doc := Document.ofText text
  match doc.draft.value with
  | .error flaw => .error flaw
  | .ok v => match doc.trailing with
    | some flaw => .error flaw
    | none => .ok v.canonical

end Cutscene.Json
