import Mathlib.Data.List.Basic
import Cutscene.Proofs.World.Setting

/-!
# What the log says about the flags

The log can be read again from its beginning: an entry sets a flag or unsets one, or a scene is
entered and brings flags of its own, and all other entries say nothing about flags
(`Replay.read?`). An entry that changes a flag can only be read if the flag does change.

A chronicle explains what becomes of it (`Chronicle.Explains`) if what has been logged since, read
from the flags of before, gives the flags of now. So it is with everything that is asked of a world
but a change of scene (`World.stage_keeps_explains`), and with a change of scene if it is known
which scene is entered (`World.explains_loadScene`).
-/

namespace Cutscene

/-- What follows the beginning of a text, if the text begins so. -/
def after? (beginning text : String) : Option String :=
  (beginning.toList.isPrefixOf? text.toList).map String.ofList

theorem after?_append (beginning rest : String) :
    after? beginning (beginning ++ rest) = some rest := by
  rw [after?, String.toList_append, List.isPrefixOf?_eq_some_iff_append_eq.2 rfl, Option.map_some,
    String.ofList_toList]

theorem after?_eq_none {beginning text : String} (n : Nat) (hn : n ≤ beginning.toList.length)
    (h : text.toList.take n ≠ beginning.toList.take n) : after? beginning text = none := by
  cases hrest : beginning.toList.isPrefixOf? text.toList with
  | none => rw [after?, hrest, Option.map_none]
  | some rest =>
      refine absurd ?_ h
      rw [← List.isPrefixOf?_eq_some_iff_append_eq.1 hrest, List.take_append_of_le_length hn]

/-- What has been replayed so far: the flags, and the scenes that are yet to be entered. -/
structure Replay where
  flags : Flags
  coming : List Scene

namespace Replay

/-- Reads an entry of the log. A flag can be set only if it is unset, and unset only if it is set; a
scene can be entered only if it is the next one. -/
def read? (r : Replay) (entry : String) : Option Replay :=
  match after? "flag.set " entry, after? "flag.unset " entry, after? "scene.load " entry with
  | some flag, _, _ =>
    if r.flags.has flag then none else some { r with flags := r.flags.set flag }
  | none, some flag, _ =>
    if r.flags.has flag then some { r with flags := r.flags.unset flag } else none
  | none, none, some entrance =>
    match r.coming with
    | scene :: coming =>
      if (after? s!"{scene.name} door=" entrance).isSome then
        some ⟨scene.flags.foldl .set r.flags, coming⟩
      else none
    | [] => none
  | none, none, none => some r

/-- Reads some entries of the log. -/
def readAll? (r : Replay) (entries : List String) : Option Replay := entries.foldlM read? r

/-- An entry that says nothing about flags can be told by how it begins. -/
def IsPlain (entry : String) : Prop :=
  entry.toList.take 3 ≠ ['f', 'l', 'a'] ∧ entry.toList.take 3 ≠ ['s', 'c', 'e']

instance (entry : String) : Decidable (IsPlain entry) := inferInstanceAs (Decidable (_ ∧ _))

section

variable {r : Replay} {entries entries' : List String}

theorem readAll?_append : r.readAll? (entries ++ entries') =
    (r.readAll? entries).bind (readAll? · entries') := List.foldlM_append

theorem read?_plain {entry : String} (h : IsPlain entry) : r.read? entry = some r := by
  obtain ⟨hflag, hscene⟩ := h
  rw [read?, after?_eq_none 3 (by decide) hflag, after?_eq_none 3 (by decide) hflag,
    after?_eq_none 3 (by decide) hscene]

theorem read?_set (flag : String) : r.read? s!"flag.set {flag}" =
    if r.flags.has flag then none else some { r with flags := r.flags.set flag } := by
  rw [read?, show after? "flag.set " s!"flag.set {flag}" = some flag from after?_append _ _]

theorem read?_unset (flag : String) : r.read? s!"flag.unset {flag}" =
    if r.flags.has flag then some { r with flags := r.flags.unset flag } else none := by
  have hset : after? "flag.set " s!"flag.unset {flag}" = none :=
    after?_eq_none 6 (by decide) (by simp [toString])
  rw [read?, hset,
    show after? "flag.unset " s!"flag.unset {flag}" = some flag from after?_append _ _]

theorem read?_enter (flags : Flags) (scene : Scene) (coming : List Scene) (door : String) :
    read? ⟨flags, scene :: coming⟩ s!"scene.load {scene.name} door={door}" =
      some ⟨scene.flags.foldl .set flags, coming⟩ := by
  have hset : after? "flag.set " s!"scene.load {scene.name} door={door}" = none :=
    after?_eq_none 3 (by decide) (by simp [toString])
  have hunset : after? "flag.unset " s!"scene.load {scene.name} door={door}" = none :=
    after?_eq_none 3 (by decide) (by simp [toString])
  have hload : after? "scene.load " s!"scene.load {scene.name} door={door}" =
      some (s!"{scene.name} door=" ++ door) := by
    rw [← after?_append "scene.load "]
    congr 1
  rw [read?, hset, hunset, hload]
  dsimp only
  rw [after?_append, Option.isSome_some, if_pos rfl]

/-- What has been read before an entry can be read up to it. -/
theorem exists_of_readAll?_append {entry : String} {r' : Replay}
    (h : r.readAll? (entries ++ entry :: entries') = some r') :
    ∃ before, r.readAll? entries = some before ∧ (before.read? entry).isSome = true := by
  rw [readAll?_append, Option.bind_eq_some_iff] at h
  obtain ⟨before, hbefore, hrest⟩ := h
  refine ⟨before, hbefore, ?_⟩
  rw [readAll?, List.foldlM_cons, Option.bind_eq_bind, Option.bind_eq_some_iff] at hrest
  obtain ⟨after, hafter, -⟩ := hrest
  rw [hafter, Option.isSome_some]

end

end Replay

/-! ## Chronicles -/

namespace Chronicle

/-- What has been logged since explains what has become of the flags, while some scenes have been
entered. -/
def Explains (scenes : List Scene) (c c' : Chronicle) : Prop :=
  ∃ entries, c'.log.toList = c.log.toList ++ entries ∧
    ∀ coming, Replay.readAll? ⟨c.flags, scenes ++ coming⟩ entries = some ⟨c'.flags, coming⟩

namespace Explains

variable {scenes scenes' : List Scene} {c c' c'' : Chronicle}

theorem of_eq (hflags : c'.flags = c.flags) (hlog : c'.log = c.log) : Explains [] c c' :=
  ⟨[], by rw [hlog, List.append_nil], fun coming => by rw [hflags]; rfl⟩

theorem refl (c : Chronicle) : Explains [] c c := of_eq rfl rfl

theorem trans (h : Explains scenes c c') (h' : Explains scenes' c' c'') :
    Explains (scenes ++ scenes') c c'' := by
  obtain ⟨entries, hlog, hread⟩ := h
  obtain ⟨entries', hlog', hread'⟩ := h'
  refine ⟨entries ++ entries', by rw [hlog', hlog, List.append_assoc], ?_⟩
  intro coming
  rw [Replay.readAll?_append, List.append_assoc, hread, Option.bind_some, hread']

/-- Without another scene. -/
theorem on (h : Explains scenes c c') (h' : Explains [] c' c'') : Explains scenes c c'' := by
  have htrans := h.trans h'
  rwa [List.append_nil] at htrans

/-- One entry is logged. -/
theorem of_push (entry : String) (hlog : c'.log = c.log.push entry)
    (hread : ∀ coming, Replay.read? ⟨c.flags, scenes ++ coming⟩ entry = some ⟨c'.flags, coming⟩) :
    Explains scenes c c' := by
  refine ⟨[entry], by rw [hlog, Array.toList_push], ?_⟩
  intro coming
  rw [Replay.readAll?, List.foldlM_cons, hread]
  rfl

/-- An entry is logged that says nothing about flags. -/
theorem record {entry : String} (h : Replay.IsPlain entry) (c : Chronicle) :
    Explains [] c (c.record entry) :=
  of_push entry rfl fun _ => Replay.read?_plain h

theorem setFlag (flag : String) (c : Chronicle) : Explains [] c (c.setFlag flag).2 := by
  unfold Chronicle.setFlag
  split
  · exact refl c
  · rename_i hunset
    refine of_push s!"flag.set {flag}" rfl ?_
    intro coming
    rw [Replay.read?_set, if_neg hunset]
    rfl

theorem unsetFlag (flag : String) (c : Chronicle) : Explains [] c (c.unsetFlag flag).2 := by
  unfold Chronicle.unsetFlag
  split
  · rename_i hset
    refine of_push s!"flag.unset {flag}" rfl ?_
    intro coming
    rw [Replay.read?_unset, if_pos hset]
    rfl
  · exact refl c

end Explains

end Chronicle

/-! ## Worlds -/

namespace World

variable {w w' : World}

theorem explains_flushDialog (w : World) : w.chronicle.Explains [] w.flushDialog.chronicle := by
  unfold flushDialog
  split
  · exact .refl _
  · exact .record (by simp [Replay.IsPlain, toString]) _

theorem explains_closeBox (w : World) : w.chronicle.Explains [] w.closeBox.chronicle :=
  w.explains_flushDialog.on (.record (by decide) _)

theorem explains_showOptions (first second : String) (highlighted : Nat) (w : World) :
    w.chronicle.Explains [] (w.showOptions first second highlighted).chronicle := by
  unfold showOptions
  split
  · exact .record (by simp [Replay.IsPlain, toString]) _
  · exact .refl _

theorem explains_hideOptions (w : World) : w.chronicle.Explains [] w.hideOptions.chronicle := by
  unfold hideOptions
  split
  · exact .refl _
  · exact .record (by simp [Replay.IsPlain, toString]) _

theorem explains_entityCue (name : String) (cue : Cue) (w : World) :
    w.chronicle.Explains [] (w.entityCue name cue).chronicle := by
  unfold entityCue
  split
  · exact .of_eq rfl rfl
  · dsimp only
    split
    · exact .record (by simp [Replay.IsPlain, toString]) _
    · exact .refl _

theorem explains_fireTrigger (kind : TriggerKind) (p : Point) (w : World) :
    w.chronicle.Explains [] (w.fireTrigger kind p).2.chronicle := by
  obtain ⟨journal, ⟨-, heq⟩ | ⟨f, -, heq⟩⟩ := fireTrigger_cases kind p w
  · rw [heq]
    exact .of_eq rfl rfl
  · rw [heq]
    have hsought : w.chronicle.Explains [] (w.withJournal journal).chronicle := .of_eq rfl rfl
    refine hsought.on ?_
    unfold spend
    split
    · rename_i flag _
      exact .setFlag flag _
    · exact .refl _

/-- Nothing that is asked of a world but a change of scene changes flags without an explanation. -/
theorem stage_keeps_explains (load : String → Reported Scene) (scenes : List Scene)
    (c : Chronicle) : (stage load).Keeps fun w => c.Explains scenes w.chronicle where
  note _ _ h := h
  setFlag name _ h := h.on (.setFlag name _)
  unsetFlag name _ h := h.on (.unsetFlag name _)
  consume _ _ h := h
  openBox _ h := h.on (.record (by decide) _)
  closeBox w h := h.on w.explains_closeBox
  setText _ w h := h.on w.explains_flushDialog
  appendText _ _ h := h
  setOverlay _ _ h := h
  lockMovement _ _ h := h
  showCursor _ _ h := h
  showOptions _ _ _ w h := h.on (w.explains_showOptions _ _ _)
  hideOptions w h := h.on w.explains_hideOptions
  showExpression _ _ h := h
  dialogClick _ h := h
  playMusic _ _ _ h := h.on (.record (by simp [Replay.IsPlain, toString]) _)
  stopMusic _ h := h.on (.record (by decide) _)
  pauseMusic _ h := h.on (.record (by decide) _)
  resumeMusic _ h := h.on (.record (by decide) _)
  entityCue name cue w h := h.on (w.explains_entityCue name cue)
  setTile _ _ _ _ _ h := h

/-- The scene that a change of scene enters, if it can be loaded. -/
def entered? (load : String → Reported Scene) (path : String) (w : World) : Option Scene :=
  (load (Text.Path.join w.directory path)).2.toOption

/-- A change of scene is logged, and the scene brings its flags. -/
theorem explains_loadScene (load : String → Reported Scene) (path : String) (door : Option String)
    (w : World) : w.chronicle.Explains (w.entered? load path).toList
      (loadScene load path door w).2.chronicle := by
  unfold entered?
  rcases hload : load (Text.Path.join w.directory path) with ⟨lines, error | scene⟩
  · obtain ⟨journal, heq⟩ := exists_loadScene_of_error hload door
    rw [heq]
    exact .of_eq rfl rfl
  · obtain ⟨journal, heq⟩ := exists_loadScene_of_ok hload door
    obtain ⟨journal', player, hentered⟩ :=
      exists_enter_eq scene door (w.leaving scene door journal)
    rw [heq, hentered]
    let entrance := door.getD "-"
    exact .of_push s!"scene.load {scene.name} door={entrance}" rfl fun coming =>
      Replay.read?_enter w.chronicle.flags scene coming entrance

end World

end Cutscene
