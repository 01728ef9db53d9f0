/-!
# Files

Scenes and scripts are read from files. The program proper sees files only through `Files`, a
function from paths to contents, so that a run is a function of what it reads.

`Tree` is a finite tree of files below a working directory. Its look-up walks a path from left to
right the way a file system does: every part but the last has to be a directory, `..` leads back,
and what lies outside the tree is empty directories.
-/

namespace Cutscene

/-- Why a file could not be read or written. -/
inductive FileError where
  | notFound
  | isDirectory
  | notDirectory
  /-- The bytes are not UTF-8. -/
  | invalidData
  /-- The path has a character that no file name has. -/
  | invalidPath
  /-- A part of the path is too long. -/
  | nameTooLong
  /-- Any other refusal. -/
  | refused
deriving DecidableEq, Repr

/-- The name of an error. -/
def FileError.label : FileError → String
  | .notFound => "NotFound"
  | .isDirectory => "IsADirectory"
  | .notDirectory => "NotADirectory"
  | .invalidData => "InvalidData"
  | .invalidPath => "InvalidInput"
  | .nameTooLong => "InvalidFilename"
  | .refused => "Other"

/-- What every path holds. -/
abbrev Files := String → Except FileError ByteArray

/-- The text of a file. -/
def Files.text (files : Files) (path : String) : Except FileError String :=
  match files path with
  | .error e => .error e
  | .ok bytes => match String.fromUTF8? bytes with
    | some s => .ok s
    | none => .error .invalidData

namespace Files

/-- A file or a directory of a tree. -/
inductive Entry where
  | file (content : ByteArray)
  | directory

/-- A finite tree of files, each at the names that lead to it. Directories on the way to a file
exist without being listed. -/
structure Tree where
  /-- The entries, the latest first. -/
  entries : List (List String × Entry)

namespace Tree

/-- What stands at a place of the tree. -/
def entry? (t : Tree) (place : List String) : Option Entry :=
  match t.entries.find? (·.1 == place) with
  | some (_, e) => some e
  | none =>
    if place.isEmpty || t.entries.any (fun e => place.isPrefixOf e.1) then some .directory else none

/-- A place reached on the way through a path. -/
inductive Place where
  /-- The names that lead here from the working directory. -/
  | inside (names : List String)
  /-- Above the working directory. -/
  | outside

/-- What stands at a place. -/
def at? (t : Tree) : Place → Option Entry
  | .inside names => t.entry? names
  | .outside => some .directory

/-- One part of a path. -/
def enter (t : Tree) (here : Place) (part : String) : Except FileError Place :=
  match t.at? here with
  | none => .error .notFound
  | some (.file _) => .error .notDirectory
  | some .directory =>
    if part = "" || part = "." then .ok here
    else if 255 < part.utf8ByteSize then .error .nameTooLong
    else match here with
    | .outside => if part = ".." then .ok .outside else .error .notFound
    | .inside names =>
      if part = ".." then .ok (if names.isEmpty then .outside else .inside names.dropLast)
      else .ok (.inside (names ++ [part]))

/-- The place that a path names, whether or not anything stands there. -/
def locate (t : Tree) (path : String) : Except FileError Place :=
  if path = "" then .error .notFound
  else if path.toList.contains (Char.ofNat 0) then .error .invalidPath
  else
    let start : Place := if path.toList.head? == some '/' then .outside else .inside []
    (path.splitOn "/").foldlM t.enter start

/-- The content of the file at a path. -/
def read (t : Tree) : Files := fun path =>
  match t.locate path with
  | .error e => .error e
  | .ok place => match t.at? place with
    | none => .error .notFound
    | some .directory => .error .isDirectory
    | some (.file content) => .ok content

/-- Puts a file at a path whose directory exists. -/
def write (t : Tree) (path : String) (content : ByteArray) : Except FileError Tree :=
  match t.locate path with
  | .error e => .error e
  | .ok .outside => .error .isDirectory
  | .ok (.inside names) => match t.entry? names with
    | some .directory => .error .isDirectory
    | some (.file _) => .ok ⟨(names, .file content) :: t.entries⟩
    | none =>
      if path.toList.getLast? == some '/' then .error .isDirectory
      else match t.entry? names.dropLast with
      | some .directory => .ok ⟨(names, .file content) :: t.entries⟩
      | some (.file _) => .error .notDirectory
      | none => .error .notFound

/-- The tree with an entry at the place a path names, its directories being made as needed. -/
def plant (t : Tree) (path : String) (e : Entry) : Tree :=
  let names := (path.splitOn "/").foldl (fun names part =>
    if part = "" || part = "." then names
    else if part = ".." then names.dropLast else names ++ [part]) []
  ⟨(names, e) :: t.entries⟩

end Tree

end Files

end Cutscene
