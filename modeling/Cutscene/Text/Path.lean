/-!
# Paths

Slash-separated paths as text. A path's components are its non-empty parts; a lone dot counts only
at the very front of a relative path. `parent?` cuts the text after the last component but one and
keeps everything before that cut as it was written.
-/

namespace Cutscene.Text.Path

/-- Whether a path starts at the root. -/
def isAbsolute (path : String) : Bool := path.toList.head? == some '/'

/-- The parts between slashes, each with the position of its end. -/
def parts (path : String) : List (String × Nat) :=
  ((path.toList.splitOn '/').foldl (fun (acc, start) part =>
    let stop := start + part.length
    (acc.push (.ofList part, stop), stop + 1)) ((#[] : Array (String × Nat)), 0)).1.toList

/-- The positions at which the components of a path end. -/
def componentEnds (path : String) : List Nat :=
  match parts path with
  | [] => []
  | first :: rest =>
    ((if first.1 = "" then [] else [first]) ++ rest.filter fun p => p.1 ≠ "" && p.1 ≠ ".").map (·.2)

/-- The path of the directory that holds what a path names; none for the root and for a path
without components. -/
def parent? (path : String) : Option String :=
  match (componentEnds path).reverse with
  | [] => none
  | [_] => some (if isAbsolute path then "/" else "")
  | _ :: stop :: _ => some (String.ofList (path.toList.take stop))

/-- The directory that relative paths in a file are resolved against. -/
def directory (path : String) : String := (parent? path).getD "."

/-- A path inside a directory; an absolute path stays as it is. -/
def join (base path : String) : String :=
  if isAbsolute path then path
  else if base = "" || base.toList.getLast? == some '/' then base ++ path
  else base ++ "/" ++ path

end Cutscene.Text.Path
