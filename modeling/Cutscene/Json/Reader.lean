import Cutscene.Json.Draft
import Cutscene.Json.Parts

/-!
# Reading a draft in the order of its text

Readers of a shape straight from a draft. They go through it in order, and the first fault decides:
a flaw of the text or a part of another shape. A record's fields may be named members or, in their
declared order, the items of an array. A repeated field is a fault when its name is met; unknown
members are passed.
-/

namespace Cutscene.Json

open Numeric

/-- What is wrong with a document for its reader. -/
inductive Fault where
  /-- The text is not JSON. -/
  | malformed
  /-- The text ends inside the value. -/
  | truncated
  /-- The value has another shape. -/
  | mismatched
deriving DecidableEq, Repr

/-- A flaw as a fault. -/
def Flaw.fault : Flaw → Fault
  | malformed => .malformed
  | truncated => .truncated

/-- The result of a reader. -/
abbrev Read (α : Type) := Except Fault α

namespace Draft

/-- The fault of a value of another shape. A value without parts is read before it is refused, an
array or an object is refused at its first character. -/
def refuse {α : Type} : Draft → Read α
  | unfit flaw _ => .error flaw.fault
  | _ => .error .mismatched

/-- Any value, its members sorted and unique. -/
def any (d : Draft) : Read Json :=
  match d.value with
  | .ok v => .ok v.canonical
  | .error flaw => .error flaw.fault

/-- A text. -/
def text : Draft → Read String
  | scalar (.string s) => .ok s
  | d => d.refuse

/-- Any number, as the nearest of the 32-bit format. -/
def single : Draft → Read Single
  | scalar (.integer n) => .ok (.ofInt n)
  | scalar (.real x) => .ok (x.convert .single)
  | d => d.refuse

/-- Null for nothing, or what `read` takes. -/
def optional {α : Type} (read : Draft → Read α) : Draft → Read (Option α)
  | scalar .null => .ok none
  | d => (read d).map some

/-- The end of an array or object. -/
def ending : Option Flaw → Read Unit
  | none => .ok ()
  | some flaw => .error flaw.fault

/-- An array of any length. -/
def items {α : Type} (read : Draft → Read α) : Draft → Read (List α)
  | array ds stop => do
    let xs ← ds.mapM read
    ending stop
    .ok xs
  | d => d.refuse

/-- A name, unless it is flawed. -/
def name : Except Flaw String → Read String
  | .ok s => .ok s
  | .error flaw => .error flaw.fault

/-- An object with any names; of repeated ones the last counts. -/
def entries {α : Type} (read : Draft → Read α) : Draft → Read (List (String × α))
  | object members stop => do
    let xs ← members.mapM fun m => do
      let s ← name m.1
      let x ← read m.2
      .ok (s, x)
    ending stop
    .ok (sortMembers xs)
  | d => d.refuse

/-- An array of exactly two items. Anything after them but the end makes the text malformed. -/
def pair {α : Type} (read : Draft → Read α) : Draft → Read (α × α)
  | array (a :: b :: rest) stop => do
    let x ← read a
    let y ← read b
    match rest with
    | [] => ending stop
    | _ :: _ => .error .malformed
    .ok (x, y)
  | array ds stop => do
    let _ ← ds.mapM read
    ending stop
    .error .mismatched
  | d => d.refuse

/-- Passes a value. -/
def pass (d : Draft) : Read Unit := ending d.passing

/-- Reads the fields of a record onto a state. `read` takes a field's name and its value. -/
def fields {σ : Type} (names : List String) (read : σ → String → Draft → Read σ) (init : σ) :
    Draft → Read σ
  | object members stop => do
    let (s, _) ← members.foldlM (fun (s, seen) m => do
      let n ← name m.1
      if n ∈ names then
        if n ∈ seen then .error .mismatched
        else do
          let s ← read s n m.2
          .ok (s, n :: seen)
      else do
        pass m.2
        .ok (s, seen)) (init, ([] : List String))
    ending stop
    .ok s
  | array ds stop => do
    let s ← (names.zip ds).foldlM (fun s (n, d) => read s n d) init
    if names.length < ds.length then .error .malformed
    else do
      ending stop
      .ok s
  | d => d.refuse

/-- One of several names: its text, or the name of an object's only member that holds null.
Anything else in its place makes the text malformed. -/
def choice (names : List String) (d : Draft) : Read String := do
  let known (s : String) : Read String := if s ∈ names then .ok s else .error .mismatched
  match d with
  | scalar (.string s) => known s
  | unfit flaw _ => .error flaw.fault
  | object ((n, held) :: rest) stop =>
    let s ← name n >>= known
    match held with
    | scalar .null => .ok ()
    | other => refuse other
    match rest with
    | [] => ending stop
    | _ :: _ => .error .malformed
    .ok s
  | object [] (some flaw) => .error flaw.fault
  | _ => .error .malformed

/-- The tag of a record, one of several names, and the parts beside it. The tag is the member
`tagName` of an object or the first item of an array; all other parts may have any shape. -/
def tagged (tagName : String) (names : List String) : Draft → Read (String × Parts Json)
  | object members stop => do
    let (tag, rest) ← members.foldlM (fun (tag, rest) m => do
      let n ← name m.1
      if n = tagName then
        if Option.isSome tag then .error .mismatched
        else do
          let t ← alternative m.2
          .ok (some t, rest)
      else
        match m.2.value with
        | .ok v => .ok (tag, (n, v) :: rest)
        | .error flaw => .error flaw.fault) ((none : Option String), ([] : List (String × Json)))
    ending stop
    match tag with
    | some t => .ok (t, .named rest.reverse)
    | none => .error .mismatched
  | array [] stop => do
    ending stop
    .error .mismatched
  | array (d :: ds) stop => do
    let t ← alternative d
    let rest ← ds.mapM fun d => match d.value with
      | .ok v => .ok v
      | .error flaw => .error flaw.fault
    ending stop
    .ok (t, .listed rest)
  | d => d.refuse
where
  /-- One of the names. -/
  alternative (d : Draft) : Read String := do
    let t ← d.text
    if t ∈ names then .ok t else .error .mismatched

/-- A field that has to be given. -/
def required {α : Type} : Option α → Read α
  | some x => .ok x
  | none => .error .mismatched

end Draft

/-- What a text writes, as `read` takes it; nothing but blanks may follow. -/
def readText {α : Type} (read : Draft → Read α) (text : String) : Read α := do
  let doc := Document.ofText text
  let x ← read doc.draft
  Draft.ending doc.trailing
  .ok x

end Cutscene.Json
