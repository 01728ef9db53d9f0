import Cutscene.Scene
import Cutscene.Session.Interpreter

/-!
# Sources

Where the scenes and the scripts of a session come from, as functions of their paths, and what the
clock shows that scripts are timed by. A session reads nothing else.
-/

namespace Cutscene

/-- The scenes and the scripts by path, and the clock. -/
structure Sources [Interpreter] where
  scene : String → Reported Scene
  /-- The script at a path; nothing stands for a text that is no script. -/
  script : String → Except FileError (Option Interpreter.Chunk)
  /-- What the clock shows in a frame, reading by reading. If nothing is said of it, it stands still:
  a script that has any time at all has all it needs. -/
  clock : Nat → Nat → Nat := fun _ _ => 0

/-- The scenes and the scripts in files. -/
def Sources.ofFiles [Interpreter] (files : Files) (clock : Nat → Nat → Nat := fun _ _ => 0) :
    Sources where
  scene := Scene.load files
  script path := (files.text path).map Interpreter.read?
  clock := clock

end Cutscene
