import Cutscene.Json.Reader
import Cutscene.Operation

/-!
# Operations in JSON

An operation is a record tagged by its kind under `op`; cues and music commands are records tagged
under `kind`. `Operation.toJson` writes every field, `Operation.ofJson?` reads records with or
without the fields that have defaults.

Inside an operation a tag may also be given as the position of the kind in its list. The outermost
operations have to name it, which is what the argument `indexed` tells.
-/

namespace Cutscene

open Numeric Json

/-! ## Writing -/

/-- A cue as JSON. -/
def Cue.toJson : Cue → Json
  | speaker name => .ofMembers [("kind", .string "speaker"), ("name", .ofText? name)]
  | move x y set => .ofMembers
      [("kind", .string "move"), ("x", .ofSingle x), ("y", .ofSingle y), ("set", .boolean set)]
  | setCycleGroup group => .ofMembers [("kind", .string "set_cycle_group"), ("group", .string group)]
  | setAnimation name => .ofMembers [("kind", .string "set_animation"), ("name", .string name)]
  | animationStart looped =>
    .ofMembers [("kind", .string "animation_start"), ("looped", .boolean looped)]
  | animationStop => .ofMembers [("kind", .string "animation_stop")]
  | setDirection d => .ofMembers [("kind", .string "set_direction"), ("direction", .string d.label)]
  | speech active => .ofMembers [("kind", .string "speech"), ("active", .boolean active)]

/-- A music command as JSON. -/
def MusicAction.toJson : MusicAction → Json
  | set path looped =>
    .ofMembers [("kind", .string "set"), ("path", .string path), ("looped", .boolean looped)]
  | stop => .ofMembers [("kind", .string "stop")]
  | pause => .ofMembers [("kind", .string "pause")]
  | play => .ofMembers [("kind", .string "play")]

/-- An option as JSON. -/
def Choice.toJson (c : Choice) : Json :=
  .ofMembers [("label", .string c.label), ("event", .string c.event)]

/-- A corner as JSON. -/
def cornerJson (p : Int32 × Int32) : Json := .array [.integer p.1.toInt, .integer p.2.toInt]

namespace Operation

/-- An operation with one field besides its kind. -/
def tagged (opcode field : String) (value : Json) : Json :=
  .ofMembers [("op", .string opcode), (field, value)]

mutual

/-- An operation as JSON. -/
def toJson : Operation → Json
  | say s => .ofMembers
      [("op", .string "say"), ("text", .string s.text), ("expression", .ofText? s.expression),
        ("interval_ms", .integer s.intervalMs.toInt), ("append", .boolean s.append)]
  | wait d => tagged "wait" "duration_ms" (.integer d.toNat)
  | waitForKey => .ofMembers [("op", .string "wait_for_key")]
  | hideBox => .ofMembers [("op", .string "hide_box")]
  | selection first second => .ofMembers
      [("op", .string "selection"), ("first", first.toJson), ("second", second.toJson)]
  | entity cue => tagged "entity" "cue" cue.toJson
  | flagSet flag => tagged "flag_set" "flag" (.string flag)
  | flagUnset flag => tagged "flag_unset" "flag" (.string flag)
  | flagIf flag event inlined => .ofMembers
      [("op", .string "flag_if"), ("flag", .string flag), ("event", .ofText? event),
        ("inline", inlinedJson inlined)]
  | flagExitIf flag => tagged "flag_exit_if" "flag" (.string flag)
  | flagOnce flag => tagged "flag_once" "flag" (.string flag)
  | music action => tagged "music" "action" action.toJson
  | sceneLoad path door => .ofMembers
      [("op", .string "scene_load"), ("path", .string path), ("door", .ofText? door)]
  | tileReplace t => .ofMembers
      [("op", .string "tile_replace"), ("layer", .integer t.layer.toNat),
        ("from", cornerJson t.start), ("to", cornerJson t.stop), ("atlas", .string t.atlas),
        ("rotation", .integer t.rotation.toInt)]
  | fadeIn d => tagged "fade_in" "duration_ms" (.integer d.toNat)
  | fadeOut d => tagged "fade_out" "duration_ms" (.integer d.toNat)
  | unsupported opcode => tagged "unsupported" "opcode" (.string opcode)

/-- Inline operations as JSON. -/
def inlinedJson : Option (List Operation) → Json
  | none => .null
  | some ops => .array (listJson ops)

/-- Operations as JSON. -/
def listJson : List Operation → List Json
  | [] => []
  | op :: rest => toJson op :: listJson rest

end

end Operation

/-! ## Reading -/

/-- A natural number that fits 64 bits. -/
def Json.word? (j : Json) : Option UInt64 := j.natural?.map UInt64.ofNat

/-- An integer that fits 64 bits. -/
def Json.int64? (j : Json) : Option Int64 :=
  (j.integer? Int64.minValue.toInt Int64.maxValue.toInt).map Int64.ofInt

/-- An integer that fits 32 bits. -/
def Json.int32? (j : Json) : Option Int32 :=
  (j.integer? Int32.minValue.toInt Int32.maxValue.toInt).map Int32.ofInt

/-- A text or null. -/
def Json.textOrNull? : Json → Option (Option String) := optional? isNull text?

/-- A corner of a rectangle. -/
def Json.corner? : Json → Option (Int32 × Int32)
  | .array [x, y] => do
    let x ← x.int32?
    let y ← y.int32?
    some (x, y)
  | _ => none

/-- The direction of a name. -/
def Direction.named? (label : String) : Option Direction :=
  [up, down, left, right].find? (·.label == label)

/-- The names of the kinds of cues. -/
def Cue.kinds : List String :=
  ["speaker", "move", "set_cycle_group", "set_animation", "animation_start", "animation_stop",
    "set_direction", "speech"]

/-- A cue from its kind and its other parts. -/
def Cue.ofParts? (kind : String) (parts : Parts Json) : Option Cue :=
  if kind = "speaker" then
    match parts.fields? ["name"] with
    | some [name] => (withDefault? none textOrNull? name).map .speaker
    | _ => none
  else if kind = "move" then
    match parts.fields? ["x", "y", "set"] with
    | some [x, y, set] => do
      let x ← required? single? x
      let y ← required? single? y
      let set ← withDefault? false boolean? set
      some (.move x y set)
    | _ => none
  else if kind = "set_cycle_group" then
    match parts.fields? ["group"] with
    | some [group] => (required? text? group).map .setCycleGroup
    | _ => none
  else if kind = "set_animation" then
    match parts.fields? ["name"] with
    | some [name] => (required? text? name).map .setAnimation
    | _ => none
  else if kind = "animation_start" then
    match parts.fields? ["looped"] with
    | some [looped] => (withDefault? false boolean? looped).map .animationStart
    | _ => none
  else if kind = "animation_stop" then (parts.fields? []).map fun _ => .animationStop
  else if kind = "set_direction" then
    match parts.fields? ["direction"] with
    | some [d] => do
      let label ← required? (bareChoice? ["up", "down", "left", "right"]) d
      let d ← Direction.named? label
      some (.setDirection d)
    | _ => none
  else if kind = "speech" then
    match parts.fields? ["active"] with
    | some [active] => (required? boolean? active).map .speech
    | _ => none
  else none

/-- A cue from JSON. -/
def Cue.ofJson? (j : Json) : Option Cue := do
  let (kind, parts) ← (← j.parts?).tag? "kind" (choice? true Cue.kinds)
  Cue.ofParts? kind parts

/-- The names of the kinds of music commands. -/
def MusicAction.kinds : List String := ["set", "stop", "pause", "play"]

/-- A music command from its kind and its other parts. -/
def MusicAction.ofParts? (kind : String) (parts : Parts Json) : Option MusicAction :=
  if kind = "set" then
    match parts.fields? ["path", "looped"] with
    | some [path, looped] => do
      let path ← required? text? path
      let looped ← withDefault? false boolean? looped
      some (.set path looped)
    | _ => none
  else if kind = "stop" then (parts.fields? []).map fun _ => .stop
  else if kind = "pause" then (parts.fields? []).map fun _ => .pause
  else if kind = "play" then (parts.fields? []).map fun _ => .play
  else none

/-- A music command from JSON. -/
def MusicAction.ofJson? (j : Json) : Option MusicAction := do
  let (kind, parts) ← (← j.parts?).tag? "kind" (choice? true MusicAction.kinds)
  MusicAction.ofParts? kind parts

/-- An option from JSON. -/
def Choice.ofJson? (j : Json) : Option Choice := do
  match ← (← j.parts?).fields? ["label", "event"] with
  | [label, event] =>
    let label ← required? text? label
    let event ← required? text? event
    some ⟨label, event⟩
  | _ => none

namespace Operation

/-- A part of an operation: its value, and the operations it lists if it lists any. -/
structure Part where
  json : Json
  operations : Option (List Operation)

/-- A reader of values as a reader of parts. -/
def Part.as {α : Type} (read : Json → Option α) (p : Part) : Option α := read p.json

/-- The operations of a part that may be null. -/
def Part.inlined? : Part → Option (Option (List Operation)) :=
  optional? (·.json.isNull) (·.operations)

/-- An operation with a single flag. -/
def flagged? (make : String → Operation) (field : String) (parts : Parts Part) :
    Option Operation :=
  match parts.fields? [field] with
  | some [flag] => (required? (Part.as text?) flag).map make
  | _ => none

/-- A fade. -/
def fade? (make : UInt64 → Operation) (parts : Parts Part) : Option Operation :=
  match parts.fields? ["duration_ms"] with
  | some [d] => (withDefault? defaultFadeMs (Part.as word?) d).map make
  | _ => none

/-- A text to say. -/
def say? (parts : Parts Part) : Option Operation :=
  match parts.fields? ["text", "expression", "interval_ms", "append"] with
  | some [text, expression, interval, append] => do
    let text ← required? (Part.as text?) text
    let expression ← withDefault? none (Part.as textOrNull?) expression
    let interval ← withDefault? defaultDialogIntervalMs (Part.as int64?) interval
    let append ← withDefault? false (Part.as boolean?) append
    some (.say ⟨text, expression, interval, append⟩)
  | _ => none

/-- A call that depends on a flag. -/
def flagIf? (parts : Parts Part) : Option Operation :=
  match parts.fields? ["flag", "event", "inline"] with
  | some [flag, event, inlined] => do
    let flag ← required? (Part.as text?) flag
    let event ← withDefault? none (Part.as textOrNull?) event
    let inlined ← withDefault? none Part.inlined? inlined
    some (.flagIf flag event inlined)
  | _ => none

/-- A rectangle of tiles. -/
def tileReplace? (parts : Parts Part) : Option Operation :=
  match parts.fields? ["layer", "from", "to", "atlas", "rotation"] with
  | some [layer, start, stop, atlas, rotation] => do
    let layer ← required? (Part.as word?) layer
    let start ← required? (Part.as corner?) start
    let stop ← required? (Part.as corner?) stop
    let atlas ← required? (Part.as text?) atlas
    let rotation ← withDefault? 0 (Part.as int32?) rotation
    some (.tileReplace ⟨layer, start, stop, atlas, rotation⟩)
  | _ => none

/-- An operation from its kind and its other parts. -/
def ofParts? (opcode : String) (parts : Parts Part) : Option Operation :=
  if opcode = "say" then say? parts
  else if opcode = "wait" then
    match parts.fields? ["duration_ms"] with
    | some [d] => (required? (Part.as word?) d).map .wait
    | _ => none
  else if opcode = "wait_for_key" then (parts.fields? []).map fun _ => .waitForKey
  else if opcode = "hide_box" then (parts.fields? []).map fun _ => .hideBox
  else if opcode = "selection" then
    match parts.fields? ["first", "second"] with
    | some [first, second] => do
      let first ← required? (Part.as Choice.ofJson?) first
      let second ← required? (Part.as Choice.ofJson?) second
      some (.selection first second)
    | _ => none
  else if opcode = "entity" then
    match parts.fields? ["cue"] with
    | some [cue] => (required? (Part.as Cue.ofJson?) cue).map .entity
    | _ => none
  else if opcode = "flag_set" then flagged? .flagSet "flag" parts
  else if opcode = "flag_unset" then flagged? .flagUnset "flag" parts
  else if opcode = "flag_if" then flagIf? parts
  else if opcode = "flag_exit_if" then flagged? .flagExitIf "flag" parts
  else if opcode = "flag_once" then flagged? .flagOnce "flag" parts
  else if opcode = "music" then
    match parts.fields? ["action"] with
    | some [action] => (required? (Part.as MusicAction.ofJson?) action).map .music
    | _ => none
  else if opcode = "scene_load" then
    match parts.fields? ["path", "door"] with
    | some [path, door] => do
      let path ← required? (Part.as text?) path
      let door ← withDefault? none (Part.as textOrNull?) door
      some (.sceneLoad path door)
    | _ => none
  else if opcode = "tile_replace" then tileReplace? parts
  else if opcode = "fade_in" then fade? .fadeIn parts
  else if opcode = "fade_out" then fade? .fadeOut parts
  else if opcode = "unsupported" then flagged? .unsupported "opcode" parts
  else none

/-- An operation from its parts. -/
def ofTagged? (indexed : Bool) (parts : Parts Part) : Option Operation := do
  let (opcode, rest) ← parts.tag? "op" (Part.as (choice? indexed opcodes))
  ofParts? opcode rest

mutual

/-- An operation from JSON. -/
def read? (indexed : Bool) : Json → Option Operation
  | .object members => ofTagged? indexed (.named (memberParts members))
  | .array items => ofTagged? indexed (.listed (itemParts items))
  | _ => none

/-- A list of operations from JSON. -/
def readList? (indexed : Bool) : Json → Option (List Operation)
  | .array items => readItems? indexed items
  | _ => none

/-- The operations of items. -/
def readItems? (indexed : Bool) : List Json → Option (List Operation)
  | [] => some []
  | j :: rest => do
    let op ← read? indexed j
    let ops ← readItems? indexed rest
    some (op :: ops)

/-- The parts of members. -/
def memberParts : List (String × Json) → List (String × Part)
  | [] => []
  | (name, j) :: rest => (name, ⟨j, readList? true j⟩) :: memberParts rest

/-- The parts of items. -/
def itemParts : List Json → List Part
  | [] => []
  | j :: rest => ⟨j, readList? true j⟩ :: itemParts rest

end

/-- An operation from JSON. -/
def ofJson? (j : Json) : Option Operation := read? false j

/-- A list of operations from JSON. -/
def listOfJson? (j : Json) : Option (List Operation) := readList? false j

/-- The parts of a record whose values have been read. -/
def partsOf : Parts Json → Parts Part
  | .named members => .named (memberParts members)
  | .listed items => .listed (itemParts items)

/-- An operation straight from a text. -/
def ofText (text : String) : Read Operation :=
  readText (fun d => do
    let (opcode, parts) ← d.tagged "op" opcodes
    match ofParts? opcode (partsOf parts) with
    | some op => .ok op
    | none => .error .mismatched) text

end Operation

end Cutscene
