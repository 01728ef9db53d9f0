import Cutscene.Json.Value

/-!
# JSON text

`Json.compact` has no blanks; `Json.pretty` indents by two blanks and leaves empty lists and
objects closed. In strings only quotes, backslashes and control characters are escaped.
-/

namespace Cutscene.Json

open Numeric

/-- A hexadecimal digit in lower case. -/
def hexDigit (n : Nat) : Char := "0123456789abcdef".toList.getD n '0'

/-- A character inside a quoted string. -/
def escape (c : Char) : List Char :=
  if c = '"' then ['\\', '"']
  else if c = '\\' then ['\\', '\\']
  else if c.toNat = 8 then ['\\', 'b']
  else if c.toNat = 9 then ['\\', 't']
  else if c.toNat = 10 then ['\\', 'n']
  else if c.toNat = 12 then ['\\', 'f']
  else if c.toNat = 13 then ['\\', 'r']
  else if c.toNat < 32 then ['\\', 'u', '0', '0', hexDigit (c.toNat / 16), hexDigit (c.toNat % 16)]
  else [c]

/-- A text with a quoted string at its end. -/
def appendQuoted (acc s : String) : String :=
  (s.foldl (fun acc c => (escape c).foldl String.push acc) (acc.push '"')).push '"'

mutual

/-- A text with a value without blanks at its end. -/
def appendCompact (acc : String) : Json → String
  | null => acc ++ "null"
  | boolean b => acc ++ (if b then "true" else "false")
  | integer n => acc ++ toString n
  | real x => acc ++ x.write .json
  | string s => appendQuoted acc s
  | array [] => acc ++ "[]"
  | array (j :: rest) => (appendCompactItems (appendCompact (acc.push '[') j) rest).push ']'
  | object [] => (acc.push '\x7b').push '\x7d'
  | object ((name, j) :: rest) =>
    (appendCompactMembers
      (appendCompact ((appendQuoted (acc.push '\x7b') name).push ':') j) rest).push '\x7d'

/-- The items after the first. -/
def appendCompactItems (acc : String) : List Json → String
  | [] => acc
  | j :: rest => appendCompactItems (appendCompact (acc.push ',') j) rest

/-- The members after the first. -/
def appendCompactMembers (acc : String) : List (String × Json) → String
  | [] => acc
  | (name, j) :: rest =>
    appendCompactMembers (appendCompact ((appendQuoted (acc.push ',') name).push ':') j) rest

end

/-- The text of a value without blanks. -/
def compact (j : Json) : String := appendCompact "" j

/-- A line break and the indentation of a depth. -/
def newline (depth : Nat) : String := "\n" ++ String.ofList (List.replicate (2 * depth) ' ')

mutual

/-- A text with a value at its end, one item or member a line. -/
def appendPretty (depth : Nat) (acc : String) : Json → String
  | array (j :: rest) =>
    appendPrettyItems (depth + 1) (appendPretty (depth + 1) (acc ++ "[" ++ newline (depth + 1)) j)
      rest ++ newline depth ++ "]"
  | object ((name, j) :: rest) =>
    appendPrettyMembers (depth + 1)
      (appendPretty (depth + 1)
        (appendQuoted (acc ++ "\x7b" ++ newline (depth + 1)) name ++ ": ") j)
      rest ++ newline depth ++ "\x7d"
  | flat => appendCompact acc flat

/-- The items after the first, each on a line of its own. -/
def appendPrettyItems (depth : Nat) (acc : String) : List Json → String
  | [] => acc
  | j :: rest =>
    appendPrettyItems depth (appendPretty depth (acc ++ "," ++ newline depth) j) rest

/-- The members after the first, each on a line of its own. -/
def appendPrettyMembers (depth : Nat) (acc : String) : List (String × Json) → String
  | [] => acc
  | (name, j) :: rest =>
    appendPrettyMembers depth
      (appendPretty depth (appendQuoted (acc ++ "," ++ newline depth) name ++ ": ") j) rest

end

/-- The text of a value, indented. -/
def pretty (j : Json) : String := appendPretty 0 "" j

end Cutscene.Json
