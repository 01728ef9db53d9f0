import Cutscene.Json.Draft
import Cutscene.Json.Parts
import Cutscene.Text.Blank

/-!
# Scripts

The language of scene scripts. A script defines functions, each with one parameter, `args`, and runs
some statements when it is loaded. Functions run as threads, which give way by yielding.

Scripts are written as JSON. A statement is an object with one member that says what it does (`set`,
`call`, `yield`, `return`, `error`, `while`, `if`, `pcall`); so is an expression, except that
numbers, texts, truth values and null stand for themselves. `Reading` is what a JSON value can stand
for, by the place that it is found in.
-/

namespace Cutscene.Script

open Numeric

/-- An operator between two values. -/
inductive BinaryOperator where
  | add
  | divide
  | less
  | equal
  | concat
deriving DecidableEq, Repr

mutual

/-- What has a value. -/
inductive Expression where
  | null
  | boolean (b : Bool)
  | number (x : Double)
  | text (bytes : ByteArray)
  /-- A table of numbered values. -/
  | list (items : List Expression)
  /-- A table of named values. -/
  | record (members : List (String × Expression))
  /-- A global, or the parameter, looked into step by step. -/
  | look (root : String) (path : List Expression)
  /-- The first result of calling a global. -/
  | call (function : String) (args : List Expression)
  /-- Gives way, with nothing as the value. -/
  | yield (values : List Expression)
  | function (body : List Statement)
  | binary (op : BinaryOperator) (left right : Expression)
  | not (e : Expression)
  | describe (e : Expression)

/-- What is done. -/
inductive Statement where
  /-- Assigns a global. -/
  | set (name : String) (value : Expression)
  | call (function : String) (args : List Expression)
  | yield (values : List Expression)
  | return (values : List Expression)
  | raise (value : Expression)
  | while (condition : Expression) (body : List Statement)
  | branch (condition : Expression) (yes no : List Statement)
  /-- Runs statements and goes on after an error among them. -/
  | protect (body : List Statement)

end

/-- A script. -/
structure Chunk where
  /-- The functions, sorted by name. -/
  functions : List (String × List Statement)
  /-- What runs when the script is loaded. -/
  main : List Statement

/-! ## Reading scripts -/

/-- What a JSON value can stand for. -/
structure Reading where
  json : Json
  expression : Option Expression
  statement : Option Statement
  expressions : Option (List Expression)
  statements : Option (List Statement)
  /-- The name of a function or a global and what follows it. -/
  application : Option (String × List Expression)
  members : Option (List (String × Expression))
  bodies : Option (List (String × List Statement))

namespace Reading

/-- A value that stands for itself. -/
def plain (json : Json) (e : Expression) : Reading :=
  ⟨json, some e, none, none, none, none, none, none⟩

/-- The bytes that a JSON array lists. -/
def bytes? : Json → Option ByteArray
  | .array items => do
    let bytes ← items.mapM fun j => (j.integer? 0 255).map fun n => UInt8.ofNat n.toNat
    some ⟨bytes.toArray⟩
  | _ => none

/-- An operator with its two operands. -/
def binary? (op : BinaryOperator) (r : Reading) : Option Expression :=
  match r.expressions with
  | some [left, right] => some (.binary op left right)
  | _ => none

/-- The expression that is written as an object with one member. -/
def expression? (name : String) (r : Reading) : Option Expression :=
  if name = "table" then r.expressions.map .list
  else if name = "map" then r.members.map .record
  else if name = "get" then r.application.map fun (root, path) => .look root path
  else if name = "call" then r.application.map fun (function, args) => .call function args
  else if name = "yield" then r.expressions.map .yield
  else if name = "fn" then r.statements.map .function
  else if name = "bytes" then (bytes? r.json).map .text
  else if name = "add" then binary? .add r
  else if name = "div" then binary? .divide r
  else if name = "lt" then binary? .less r
  else if name = "eq" then binary? .equal r
  else if name = "concat" then binary? .concat r
  else if name = "not" then r.expression.map .not
  else if name = "tostring" then r.expression.map .describe
  else none

/-- A member of an object. -/
def member? (members : List (String × Reading)) (name : String) : Option Reading :=
  (members.find? (·.1 == name)).map (·.2)

/-- The statements of a member that may be left out. -/
def body? (members : List (String × Reading)) (name : String) : Option (List Statement) :=
  match member? members name with
  | some r => r.statements
  | none => some []

/-- The statement that is written as an object: the first of the members that make statements says
which. -/
def statement? (members : List (String × Reading)) : Option Statement :=
  if let some r := member? members "set" then do
    let value := (member? members "to").getD (plain .null .null)
    some (.set (← r.json.text?) (← value.expression))
  else if let some r := member? members "call" then
    r.application.map fun (function, args) => .call function args
  else if let some r := member? members "yield" then r.expressions.map .yield
  else if let some r := member? members "return" then r.expressions.map .return
  else if let some r := member? members "error" then r.expression.map .raise
  else if let some r := member? members "while" then do
    some (.while (← r.expression) (← body? members "body"))
  else if let some r := member? members "if" then do
    some (.branch (← r.expression) (← body? members "then") (← body? members "else"))
  else if let some r := member? members "pcall" then r.statements.map .protect
  else none

/-- What an array can stand for. -/
def ofItems (json : Json) (items : List Reading) : Reading where
  json := json
  expression := none
  statement := none
  expressions := items.mapM (·.expression)
  statements := items.mapM (·.statement)
  application := match items with
    | [] => none
    | name :: args => do some (← name.json.text?, ← args.mapM (·.expression))
  members := none
  bodies := none

/-- What an object can stand for. -/
def ofMembers (json : Json) (members : List (String × Reading)) : Reading where
  json := json
  expression := match members with
    | [(name, r)] => expression? name r
    | _ => none
  statement := statement? members
  expressions := none
  statements := none
  application := none
  members := members.mapM fun (name, r) => r.expression.map (name, ·)
  bodies := members.mapM fun (name, r) => r.statements.map (name, ·)

mutual

/-- What a JSON value can stand for. -/
def read : Json → Reading
  | .null => plain .null .null
  | .boolean b => plain (.boolean b) (.boolean b)
  | .integer n => plain (.integer n) (.number (.ofInt n))
  | .real x => plain (.real x) (.number x)
  | .string s => plain (.string s) (.text s.toUTF8)
  | .array items => ofItems (.array items) (readItems items)
  | .object members => ofMembers (.object members) (readMembers members)

/-- `read` on each item. -/
def readItems : List Json → List Reading
  | [] => []
  | j :: rest => read j :: readItems rest

/-- `read` on each member. -/
def readMembers : List (String × Json) → List (String × Reading)
  | [] => []
  | (name, j) :: rest => (name, read j) :: readMembers rest

end

end Reading

namespace Chunk

/-- The script that does nothing. -/
def empty : Chunk := ⟨[], []⟩

/-- The value of a member, or nothing if there is none. -/
def part? {α : Type} (j : Json) (name : String) (default : α) (read : Reading → Option α) :
    Option α :=
  match j.member? name with
  | some part => read (.read part)
  | none => some default

/-- The script that a JSON value describes. One that is marked with `syntax_error` is none. -/
def ofJson? (j : Json) : Option Chunk := do
  if (j.member? "syntax_error").bind Json.boolean? == some true then none
  let functions ← part? j "functions" [] (·.bodies)
  let main ← part? j "main" [] (·.statements)
  some ⟨functions, main⟩

/-- The first line of a script file. -/
def header : String := "-- script"

/-- Whether a line says nothing. -/
def isRemark (line : String) : Bool :=
  let line := Text.trimmed line
  line.isEmpty || ("--".isPrefixOf line && !"--[".isPrefixOf line)

/-- The script in a file: the JSON that follows the header. A file of remarks is the script that does
nothing. -/
def ofText? (text : String) : Option Chunk :=
  match text.splitOn "\n" with
  | [] => some empty
  | first :: rest =>
    if first = header then
      match Json.ofString? ("\n".intercalate rest) with
      | .ok j => ofJson? j
      | .error _ => none
    else if (first :: rest).all isRemark then some empty
    else none

end Chunk

end Cutscene.Script
