import Cutscene.Proofs.World.Handles
import Cutscene.Proofs.World.Setting

/-!
# The numbers of events

Every event that a world holds got a number when it was made, and no event has the next number yet
(`Numbered`). A scene that is entered brings events with numbers from the next one on, so none of
them is an event that was there before.
-/

namespace Cutscene

namespace World

/-- The numbers of the events that a world holds have been given. -/
def Numbered (w : World) : Prop := ∀ e, w.Holds e → e.id.origin < w.nextOrigin

theorem numbered_blank : blank.Numbered := by
  rintro e (⟨name, hfind⟩ | ⟨x, hx, -⟩)
  · rw [show blank.library = .empty from rfl, Library.find?_empty] at hfind
    cases hfind
  · exact absurd hx List.not_mem_nil

/-- The events of a trigger of a scene are numbered from the first number on. -/
theorem exists_of_mem_ownTriggers {origin : Nat} {ts : List (Trigger (List Operation))}
    {t : Trigger Event} {e : Event} (ht : t ∈ ownTriggers origin ts)
    (haction : t.action = .inlined e) :
    ∃ i operations, i < ts.length ∧ e = .make (origin + i) none operations := by
  obtain ⟨⟨u, i⟩, hmem, rfl⟩ := List.mem_map.mp ht
  have hlt := (List.getElem?_eq_some_iff.mp (List.mem_zipIdx_iff_getElem?.mp hmem)).1
  unfold Trigger.map at haction
  dsimp only at haction
  split at haction
  · cases haction
  · obtain rfl := TriggerAction.inlined.inj haction
    exact ⟨i, _, hlt, rfl⟩

/-- The events of a scene that is entered are made anew. -/
theorem origin_of_holds_enter {scene : Scene} {door : Option String} {w : World} {e : Event}
    (h : (w.enter scene door).Holds e) :
    w.nextOrigin ≤ e.id.origin ∧ e.id.origin < (w.enter scene door).nextOrigin := by
  rw [nextOrigin_enter]
  -- the events of the library have the first numbers and those of the triggers the next ones
  rcases h with ⟨name, hfind⟩ | ⟨x, hx, haction⟩
  · rw [library_enter] at hfind
    obtain ⟨i, entry, hget, rfl⟩ := Library.exists_getElem?_of_find?_ofList hfind
    have hlt := (List.getElem?_eq_some_iff.mp hget).1
    simp only [Event.make]
    omega
  · rw [triggers_enter] at hx
    obtain ⟨i, operations, hlt, rfl⟩ :=
      exists_of_mem_ownTriggers (Arena.mem_of_mem_insertAll_clear hx) haction
    simp only [Event.make]
    omega

theorem numbered_enter (scene : Scene) (door : Option String) (w : World) :
    (w.enter scene door).Numbered := fun _ h => (origin_of_holds_enter h).2

theorem numbered_ofScene (scene : Scene) : (ofScene scene).Numbered :=
  numbered_enter scene none blank

/-- A world that has been left its setting is numbered as before. -/
theorem Numbered.of_setting {w w' : World} (h : w.Numbered) (hsetting : w'.setting = w.setting) :
    w'.Numbered := by
  have hlibrary : w'.library = w.library := congrArg Setting.library hsetting
  have htriggers : w'.triggers = w.triggers := congrArg Setting.triggers hsetting
  have hnext : w'.nextOrigin = w.nextOrigin := congrArg Setting.nextOrigin hsetting
  intro e he
  rw [Holds, hlibrary, htriggers] at he
  rw [hnext]
  exact h e he

theorem nextOrigin_le_enter (scene : Scene) (door : Option String) (w : World) :
    w.nextOrigin ≤ (w.enter scene door).nextOrigin := by
  rw [nextOrigin_enter]
  omega

/-- A change of scene leaves the numbers as they are or gives new ones; the start event that it
gives has a new one. -/
theorem Numbered.loadScene {w : World} (hw : w.Numbered) (load : String → Reported Scene)
    (path : String) (door : Option String) :
    let r := loadScene load path door w
    r.2.Numbered ∧ w.nextOrigin ≤ r.2.nextOrigin ∧
      ∀ e ∈ r.1, w.nextOrigin ≤ e.id.origin ∧ e.id.origin < r.2.nextOrigin := by
  intro r
  rcases hload : load (Text.Path.join w.directory path) with ⟨lines, error | scene⟩
  · obtain ⟨journal, hr : r = _⟩ := exists_loadScene_of_error hload door
    rw [hr]
    exact ⟨hw.of_setting rfl, le_rfl, by simp⟩
  · obtain ⟨journal, hr : r = _⟩ := exists_loadScene_of_ok hload door
    rw [hr]
    exact ⟨numbered_enter scene door _,
      nextOrigin_le_enter scene door (w.leaving scene door journal),
      fun e he => origin_of_holds_enter (w := w.leaving scene door journal)
        (.inl ⟨Event.startName, he⟩)⟩

end World

end Cutscene
