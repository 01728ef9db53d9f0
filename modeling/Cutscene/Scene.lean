import Cutscene.Files
import Cutscene.Journal
import Cutscene.Operation.Codec
import Cutscene.Scene.Declaration
import Cutscene.Text.Path

/-!
# Scenes

A scene is a declaration whose events are loaded and whose positions are in pixels. Loading goes
through the events in the order of their names and then through the triggers; the first that cannot
be loaded is what the error names.

An operation of an unknown kind does not spoil its scene. Before the operations of an event are
read, every object whose `op` is an unknown text is replaced by an unsupported operation of that
kind (`markUnsupported`), at any depth.
-/

namespace Cutscene

open Json

/-- Why a scene could not be loaded. -/
inductive SceneError where
  /-- The file could not be read. -/
  | file (path : String) (error : FileError)
  /-- The file does not declare a scene. -/
  | parse (path : String) (fault : Fault)
  /-- The operations of an event could not be read. -/
  | event (path event : String)
  /-- A trigger names no event and has none of its own. -/
  | triggerWithoutEvent (path : String) (index : Nat)
deriving DecidableEq, Repr

/-- The wording of an error, without its cause. -/
def SceneError.message : SceneError → String
  | .file path _ => s!"reading {path}"
  | .parse path _ => s!"parsing {path}"
  | .event path name => s!"event '{name}' in {path}"
  | .triggerWithoutEvent path index => s!"trigger #{index} in {path} has no event"

/-- A scene. -/
structure Scene where
  name : String
  path : String
  /-- The events, sorted by name. -/
  events : List (String × List Operation)
  entities : List (String × Point)
  triggers : List (Trigger (List Operation))
  /-- The flags that are set when the scene is loaded. -/
  flags : List String
  /-- The path of the script. -/
  script : Option String
  doors : List (String × Point)
  player : Option Point

/-- The directory that the scene's paths are resolved against. -/
def Scene.directory (scene : Scene) : String := Text.Path.directory scene.path

/-! ## Unknown operations -/

/-- The kind of an operation of an unknown kind. -/
def unknownOpcode? (members : List (String × Json)) : Option String :=
  match (Json.object members).member? "op" with
  | some (.string op) => if Operation.isOpcode op then none else some op
  | _ => none

mutual

/-- The value with every operation of an unknown kind replaced. -/
def markUnsupported : Json → Json
  | .array items => .array (markItems items)
  | .object members =>
    match unknownOpcode? members with
    | some opcode => .object [("op", .string "unsupported"), ("opcode", .string opcode)]
    | none => .object (markMembers members)
  | other => other

/-- `markUnsupported` on each item. -/
def markItems : List Json → List Json
  | [] => []
  | j :: rest => markUnsupported j :: markItems rest

/-- `markUnsupported` on each member. -/
def markMembers : List (String × Json) → List (String × Json)
  | [] => []
  | (name, j) :: rest => (name, markUnsupported j) :: markMembers rest

end

mutual

/-- The unknown kinds that `markUnsupported` replaces, in the order in which it meets them. -/
def unknownOpcodes : Json → List String
  | .array items => unknownInItems items
  | .object members =>
    match unknownOpcode? members with
    | some opcode => [opcode]
    | none => unknownInMembers members
  | _ => []

/-- The unknown kinds in items. -/
def unknownInItems : List Json → List String
  | [] => []
  | j :: rest => unknownOpcodes j ++ unknownInItems rest

/-- The unknown kinds in members. -/
def unknownInMembers : List (String × Json) → List String
  | [] => []
  | (_, j) :: rest => unknownOpcodes j ++ unknownInMembers rest

end

/-- The operations of an event's body. -/
def loadOperations? (body : Json) : Option (List Operation) :=
  Operation.listOfJson? (markUnsupported body)

/-- The lines that report the unknown operations of a body. -/
def unknownLines (body : Json) : List Line :=
  (unknownOpcodes body).map fun opcode =>
    ⟨.warn, s!"unknown opcode '{opcode}' loaded as unsupported"⟩

/-! ## Loading -/

/-- A result together with the lines reported on the way. -/
abbrev Reported (α : Type) := List Line × Except SceneError α

/-- Loads the events of a declaration. -/
def loadEvents (path : String) :
    List (String × Json) → Reported (List (String × List Operation))
  | [] => ([], .ok [])
  | (name, body) :: rest =>
    match loadOperations? body with
    | none => (unknownLines body, .error (.event path name))
    | some ops =>
      let (lines, result) := loadEvents path rest
      (unknownLines body ++ lines, result.map ((name, ops) :: ·))

/-- A flag name; an empty one is none. -/
def gate (flag : Option String) : Option String := flag.filter (· ≠ "")

/-- A trigger of a declaration with its action. -/
def TriggerDeclaration.withAction (d : TriggerDeclaration)
    (action : TriggerAction (List Operation)) : Trigger (List Operation) :=
  ⟨d.kind, .ofTiles d.x d.y d.width d.height, gate d.ifFlag, gate d.bindFlag, action⟩

/-- Loads one trigger; an event of its own comes before a named one. -/
def loadTrigger (path : String) (index : Nat) (d : TriggerDeclaration) :
    Reported (Trigger (List Operation)) :=
  match d.inlined, d.event with
  | some body, _ =>
    (unknownLines body, match loadOperations? body with
      | some ops => .ok (d.withAction (.inlined ops))
      | none => .error (.event path s!"trigger #{index}"))
  | none, some name => ([], .ok (d.withAction (.named name)))
  | none, none => ([], .error (.triggerWithoutEvent path index))

/-- Loads the triggers of a declaration, the first of which has a number. -/
def loadTriggers (path : String) :
    Nat → List TriggerDeclaration → Reported (List (Trigger (List Operation)))
  | _, [] => ([], .ok [])
  | index, d :: rest =>
    match loadTrigger path index d with
    | (lines, .error e) => (lines, .error e)
    | (lines, .ok t) =>
      let (more, result) := loadTriggers path (index + 1) rest
      (lines ++ more, result.map (t :: ·))

namespace Scene

/-- A scene from its declaration, its events and its triggers. -/
def assemble (path : String) (d : SceneDeclaration) (events : List (String × List Operation))
    (triggers : List (Trigger (List Operation))) : Scene where
  name := d.name
  path := path
  events := events
  entities := d.entities.map fun e => (e.name, .ofTiles e.x e.y)
  triggers := triggers
  flags := d.flags
  script := d.script.map (Text.Path.join (Text.Path.directory path))
  doors := d.doors.map fun (name, x, y) => (name, .ofTiles x y)
  player := d.player.map fun (x, y) => .ofTiles x y

/-- The scene of a declaration. -/
def ofDeclaration (path : String) (d : SceneDeclaration) : Reported Scene :=
  match loadEvents path d.events with
  | (lines, .error e) => (lines, .error e)
  | (lines, .ok events) =>
    match loadTriggers path 0 d.triggers with
    | (more, .error e) => (lines ++ more, .error e)
    | (more, .ok triggers) =>
      let summary : Line := ⟨.debug,
        s!"scene {d.name} parsed: {events.length} event(s), {triggers.length} trigger(s)"⟩
      (lines ++ more ++ [summary], .ok (assemble path d events triggers))

/-- The scene that a text declares. -/
def ofText (path text : String) : Reported Scene :=
  match SceneDeclaration.ofText text with
  | .error fault => ([], .error (.parse path fault))
  | .ok d => ofDeclaration path d

/-- The scene in a file. -/
def load (files : Files) (path : String) : Reported Scene :=
  match files.text path with
  | .error e => ([], .error (.file path e))
  | .ok text => ofText path text

end Scene

end Cutscene
