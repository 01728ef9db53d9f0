import Cutscene.Json.Reader
import Cutscene.Trigger

/-!
# Scene declarations

What a scene file says, before its events are loaded. Positions are in tiles. Every field but the
name of the scene has a default.
-/

namespace Cutscene

open Numeric Json

/-- An entity and its position. -/
structure EntityDeclaration where
  name : String
  x : Single
  y : Single

/-- A trigger. -/
structure TriggerDeclaration where
  kind : TriggerKind
  x : Single
  y : Single
  width : Single
  height : Single
  ifFlag : Option String
  bindFlag : Option String
  event : Option String
  /-- The operations of an event of its own. -/
  inlined : Option Json

/-- A scene. -/
structure SceneDeclaration where
  name : String
  /-- The bodies of the events, sorted by name. -/
  events : List (String × Json)
  entities : List EntityDeclaration
  triggers : List TriggerDeclaration
  /-- The flags that are set when the scene is loaded. -/
  flags : List String
  script : Option String
  /-- Positions by name, sorted by name. -/
  doors : List (String × (Single × Single))
  /-- Where the player starts. -/
  player : Option (Single × Single)

namespace EntityDeclaration

/-- The fields read so far. -/
structure Fields where
  name : Option String
  x : Option Single
  y : Option Single

/-- Reads an entity. -/
def read (d : Draft) : Read EntityDeclaration := do
  let f ← d.fields ["name", "x", "y"] (fun f field d =>
    match field with
    | "name" => do return { f with name := some (← d.text) }
    | "x" => do return { f with x := some (← d.single) }
    | _ => do return { f with y := some (← d.single) }) (⟨none, none, none⟩ : Fields)
  let name ← Draft.required f.name
  return ⟨name, f.x.getD (.zero false), f.y.getD (.zero false)⟩

end EntityDeclaration

namespace TriggerDeclaration

/-- The fields read so far. -/
structure Fields where
  kind : Option TriggerKind
  x : Option Single
  y : Option Single
  width : Option Single
  height : Option Single
  ifFlag : Option String
  bindFlag : Option String
  event : Option String
  inlined : Option Json

/-- The names of the fields, in their declared order. -/
def fieldNames : List String :=
  ["kind", "x", "y", "w", "h", "if_flag", "bind_flag", "event", "inline"]

/-- Reads a kind. -/
def readKind (d : Draft) : Read TriggerKind := do
  let name ← d.choice ["touch", "button"]
  return if name = "touch" then .touch else .button

/-- Reads one field. -/
def readField (f : Fields) (field : String) (d : Draft) : Read Fields :=
  match field with
  | "kind" => do return { f with kind := some (← readKind d) }
  | "x" => do return { f with x := some (← d.single) }
  | "y" => do return { f with y := some (← d.single) }
  | "w" => do return { f with width := some (← d.single) }
  | "h" => do return { f with height := some (← d.single) }
  | "if_flag" => do return { f with ifFlag := ← d.optional Draft.text }
  | "bind_flag" => do return { f with bindFlag := ← d.optional Draft.text }
  | "event" => do return { f with event := ← d.optional Draft.text }
  | _ => do return { f with inlined := ← d.optional Draft.any }

/-- Reads a trigger. -/
def read (d : Draft) : Read TriggerDeclaration := do
  let f ← d.fields fieldNames readField
    ⟨none, none, none, none, none, none, none, none, none⟩
  let kind ← Draft.required f.kind
  let x ← Draft.required f.x
  let y ← Draft.required f.y
  let one : Single := .ofNat 1
  return ⟨kind, x, y, f.width.getD one, f.height.getD one, f.ifFlag, f.bindFlag, f.event, f.inlined⟩

end TriggerDeclaration

namespace SceneDeclaration

/-- The fields read so far. -/
structure Fields where
  name : Option String
  events : List (String × Json)
  entities : List EntityDeclaration
  triggers : List TriggerDeclaration
  flags : List String
  script : Option String
  doors : List (String × (Single × Single))
  player : Option (Single × Single)

/-- The names of the fields, in their declared order. -/
def fieldNames : List String :=
  ["name", "events", "entities", "triggers", "flags", "script", "doors", "player"]

/-- Reads one field. -/
def readField (f : Fields) (field : String) (d : Draft) : Read Fields :=
  match field with
  | "name" => do return { f with name := some (← d.text) }
  | "events" => do return { f with events := ← d.entries Draft.any }
  | "entities" => do return { f with entities := ← d.items EntityDeclaration.read }
  | "triggers" => do return { f with triggers := ← d.items TriggerDeclaration.read }
  | "flags" => do return { f with flags := ← d.items Draft.text }
  | "script" => do return { f with script := ← d.optional Draft.text }
  | "doors" => do return { f with doors := ← d.entries (Draft.pair Draft.single) }
  | _ => do return { f with player := ← d.optional (Draft.pair Draft.single) }

/-- Reads a scene. -/
def read (d : Draft) : Read SceneDeclaration := do
  let f ← d.fields fieldNames readField ⟨none, [], [], [], [], none, [], none⟩
  let name ← Draft.required f.name
  return ⟨name, f.events, f.entities, f.triggers, f.flags, f.script, f.doors, f.player⟩

/-- The scene that a text declares. -/
def ofText (text : String) : Read SceneDeclaration := readText read text

end SceneDeclaration

end Cutscene
