import Cutscene.Proofs.World.Setting
import Cutscene.Stage.Rehearsal

/-!
# Stages with a library

Worlds and rehearsals hold the events of their scene. Nothing that is asked of them but a change of
scene changes these events.
-/

namespace Cutscene

namespace Rehearsal

/-- A rehearsal of which nothing has been asked, without other scenes. -/
def opening (library : Library) (flags : Flags) : Rehearsal where
  calls := #[]
  journal := #[]
  flags := flags
  pressed := .none
  boxOpen := false
  text := ""
  overlay := .clear
  locked := false
  library := library
  entities := ∅
  scenes := []
  fresh := 0

theorem library_consume (c : Control) (r : Rehearsal) : (consume c r).2.library = r.library := by
  unfold consume
  split <;> rfl

/-- A rehearsal serves the library that it begins with. -/
theorem stage_serves (lib : Library) : stage.Serves lib (·.library = lib) where
  note _ _ h := h
  setFlag _ _ h := h
  unsetFlag _ _ h := h
  consume c r h := (library_consume c r).trans h
  openBox _ h := h
  closeBox _ h := h
  setText _ _ h := h
  appendText _ _ h := h
  setOverlay _ _ h := h
  lockMovement _ _ h := h
  showCursor _ _ h := h
  showOptions _ _ _ _ h := h
  hideOptions _ h := h
  showExpression _ _ h := h
  dialogClick _ h := h
  playMusic _ _ _ h := h
  stopMusic _ h := h
  pauseMusic _ h := h
  resumeMusic _ h := h
  entityCue _ _ _ h := h
  setTile _ _ _ _ _ h := h
  find r h name := by
    rw [← h]
    rfl

end Rehearsal

namespace World

/-- A world serves the events of its scene. -/
theorem stage_serves (load : String → Reported Scene) (lib : Library) :
    (stage load).Serves lib (·.library = lib) where
  toKeeps := .of_value (stage_keeps_setting load) fun _ _ hsetting h =>
    (congrArg Setting.library hsetting).trans h
  find w h name := by
    rw [← h]
    rfl

end World

end Cutscene
