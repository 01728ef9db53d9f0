import Mathlib.Data.Multiset.Basic
import Cutscene.Proofs.World.Acts
import Cutscene.Proofs.World.Numbers
import Cutscene.Proofs.World.Tours

/-!
# Changes of scene are all or nothing

A scene that cannot be loaded leaves a world as it is. One that can be loaded leaves nothing in the
tables of the world that was there before: they have what a world has that begins with the scene
(`scene_swapped_whole`). The tables are compared by what is in them (`Tables`), since a world that
has been elsewhere gives other numbers to the events and other slots to the triggers. In exchange,
no event and no handle that was good before is good afterwards.
-/

namespace Cutscene

/-- What a world has of its scene: the events but for their numbers, the triggers but for their
slots, and the rest as it is. -/
structure Tables where
  scene : String
  directory : String
  /-- The name and the operations of the event that a name stands for. -/
  events : String → Option (Option String × List Operation)
  entities : Std.ExtTreeMap String Entity
  triggers : Multiset (Trigger (List Operation))
  doors : List (String × Point)
  lastTrigger : Option Handle

namespace World

/-- The tables of a world. -/
def tables (w : World) : Tables where
  scene := w.scene
  directory := w.directory
  events name := (w.library.find? name).map fun e => (e.name, e.operations)
  entities := w.entities
  triggers := (w.triggers.toList.map (·.2)).map (·.map Event.operations)
  doors := w.doors
  lastTrigger := w.lastTrigger

/-- The operations of the triggers of a scene are those of their events. -/
theorem map_operations_ownTriggers (origin : Nat) (ts : List (Trigger (List Operation))) :
    (ownTriggers origin ts).map (·.map Event.operations) = ts := by
  have hmade : ∀ x ∈ ts.zipIdx,
      (x.1.map (Event.make (origin + x.2) none)).map Event.operations = x.1 := by
    rintro ⟨⟨kind, area, ifFlag, bindFlag, action⟩, i⟩ -
    cases action <;> rfl
  rw [ownTriggers, List.map_map]
  exact (List.map_congr_left hmade).trans (List.zipIdx_map_fst ..)

/-- The triggers of a scene that is entered are all triggers that there are, in some order. -/
theorem perm_triggers_enter {w : World} {vacant occupied : List (Slot (Trigger Event))}
    (h : w.triggers.Packed vacant occupied) (scene : Scene) (door : Option String) :
    (((w.enter scene door).triggers.toList.map (·.2)).map (·.map Event.operations)).Perm
      scene.triggers := by
  set own := ownTriggers (w.nextOrigin + scene.events.length) scene.triggers with hown
  have hlisted : (w.enter scene door).triggers.toList =
      Arena.slotOrder w.triggers.slots.size ((w.triggers.clear.handles own).zip own) := by
    rw [triggers_enter]
    exact h.toList_insertAll_clear own
  have hperm := ((Arena.slotOrder_perm w.triggers.slots.size
    ((w.triggers.clear.handles own).zip own)).map (·.2)).map (·.map Event.operations)
  rwa [List.map_snd_zip (by simp), hown, map_operations_ownTriggers, ← hown, ← hlisted] at hperm

/-- The tables of a world that enters a scene are those of the scene, wherever it comes from. -/
theorem tables_enter {w : World} {vacant occupied : List (Slot (Trigger Event))}
    (h : w.triggers.Packed vacant occupied) (scene : Scene) (door : Option String) :
    (w.enter scene door).tables =
      { scene := scene.name
        directory := scene.directory
        events := fun name => (scene.events.reverse.find? (·.1 == name)).map
          fun entry => (some entry.1, entry.2)
        entities := .ofList (scene.entities.map fun (name, p) => (name, Entity.standing p))
        triggers := scene.triggers
        doors := scene.doors
        lastTrigger := w.lastTrigger } := by
  have htriggers := Multiset.coe_eq_coe.mpr (perm_triggers_enter h scene door)
  obtain ⟨journal, player, hentered⟩ := exists_enter_eq scene door w
  rw [tables, htriggers, hentered]
  congr 1
  funext name
  exact Library.map_find?_ofList w.nextOrigin scene.events name

/-! ## Worlds that are reached -/

variable {load : String → Reported Scene} {w : World}

theorem packed_enter {vacant occupied : List (Slot (Trigger Event))}
    (h : w.triggers.Packed vacant occupied) (scene : Scene) (door : Option String) :
    ∃ vacant occupied, (w.enter scene door).triggers.Packed vacant occupied := by
  obtain ⟨vacant', occupied', hpacked, -⟩ := h.clear.insertAll
    (ownTriggers (w.nextOrigin + scene.events.length) scene.triggers)
  rw [triggers_enter]
  exact ⟨vacant', occupied', hpacked⟩

/-- The slots that the triggers of a world are in are the last ones. -/
theorem Reached.packed (h : Reached load w) :
    ∃ vacant occupied, w.triggers.Packed vacant occupied := by
  refine h.invariant_enter (P := fun w => ∃ vacant occupied, w.triggers.Packed vacant occupied)
    ⟨[], [], .empty⟩ ?_ ?_
  · rintro w w' - htriggers - hw
    rwa [htriggers]
  · rintro w scene door ⟨vacant, occupied, hpacked⟩
    exact packed_enter hpacked scene door

theorem Reached.numbered (h : Reached load w) : w.Numbered := by
  refine h.invariant_enter numbered_blank ?_ fun w scene door _ => numbered_enter scene door w
  intro w w' hlibrary htriggers hnext hw e he
  rw [Holds, hlibrary, htriggers] at he
  rw [hnext]
  exact hw e he

/-- The events of a scene that is entered are none of those that were there before. -/
theorem Numbered.id_ne_of_enter {scene : Scene} {door : Option String} {e e' : Event}
    (h : w.Numbered) (he : w.Holds e) (he' : (w.enter scene door).Holds e') : e.id ≠ e'.id := by
  intro heq
  have hlt := h e he
  have hle := (origin_of_holds_enter he').1
  rw [heq] at hlt
  omega

/-- A change of scene is all or nothing. In every world that is reached, a scene that cannot be
loaded changes nothing (but the journal, which is no part of the world's state). A scene that can be
loaded leaves in the tables just what is there in a world that begins with the scene and whose
player is put at the same door, and its script is pending; no event and no handle that was good
before is good afterwards. -/
theorem scene_swapped_whole (h : Reached load w) (path : String) (door : Option String) :
    (∀ lines error, load (Text.Path.join w.directory path) = (lines, .error error) →
      ∃ journal, loadScene load path door w = (none, w.withJournal journal)) ∧
    ∀ lines scene, load (Text.Path.join w.directory path) = (lines, .ok scene) →
      let w' := (loadScene load path door w).2
      w'.tables = ((ofScene scene).placePlayer door scene.player).tables ∧
        w'.pendingScript = some scene.script ∧
        (∀ handle, w.triggers.isLive handle = true → w'.triggers.isLive handle = false) ∧
        ∀ e e', w.Holds e → w'.Holds e' → e.id ≠ e'.id := by
  constructor
  · intro lines error hload
    exact exists_loadScene_of_error hload door
  · intro lines scene hload w'
    obtain ⟨journal, heq⟩ := exists_loadScene_of_ok hload door
    have hw' : w' = (w.leaving scene door journal).enter scene door := congrArg Prod.snd heq
    obtain ⟨vacant, occupied, hpacked⟩ := h.packed
    -- where the player is put is no part of the tables
    have hnew : ((ofScene scene).placePlayer door scene.player).tables =
        (blank.enter scene none).tables := by
      obtain ⟨journal', player, hplaced⟩ :=
        exists_placePlayer_eq door scene.player (ofScene scene)
      rw [hplaced]
      rfl
    refine ⟨?_, ?_, ?_, ?_⟩
    · -- both worlds have entered the scene, and what is in the tables then depends on it alone
      rw [hnew, hw', tables_enter (w := w.leaving scene door journal) hpacked,
        tables_enter (w := blank) .empty]
      rfl
    · rw [hw', pendingScript_enter]
    · intro handle hlive
      rw [hw', triggers_enter]
      exact Arena.isLive_insertAll_clear hlive _
    · intro e e' he he'
      rw [hw'] at he'
      have hleaving : (w.leaving scene door journal).Numbered := h.numbered.of_setting rfl
      exact hleaving.id_ne_of_enter he he'

/-! ## From one belfry to another -/

/-- A belfry of two bells, and no other file. -/
def loadBelfry (path : String) : Reported Scene :=
  if path = "belfry.json" then ([], .ok (belfry ["second", "third"]))
  else ([], .error (.triggerWithoutEvent path 0))

/-- From a belfry of one bell, which has been rung, there is no way into a cellar; in the other
belfry there are two bells and nothing of the one that was rung. -/
theorem scene_swapped_whole_belfry :
    let w := actAll loadBelfry (ofScene (belfry ["first"])) [.fireTrigger .button .origin]
    Reached loadBelfry w ∧ w.lastTrigger = some ⟨0, 0⟩ ∧ w.triggers.isLive ⟨0, 0⟩ = true ∧
      (∃ journal, loadScene loadBelfry "cellar.json" none w = (none, w.withJournal journal)) ∧
      let w' := (loadScene loadBelfry "belfry.json" none w).2
      w'.tables = ((ofScene (belfry ["second", "third"])).placePlayer none none).tables ∧
        w'.pendingScript = some none ∧ w'.triggers.isLive ⟨0, 0⟩ = false ∧
        ∀ e e', w.Holds e → w'.Holds e' → e.id ≠ e'.id := by
  intro w
  have hw : Reached loadBelfry w := ⟨_, _, rfl⟩
  have hlive : w.triggers.isLive ⟨0, 0⟩ = true := by decide +kernel
  have hbelfry : Text.Path.join w.directory "belfry.json" = "belfry.json" := by decide +kernel
  have hcellar : Text.Path.join w.directory "cellar.json" = "cellar.json" := by decide +kernel
  obtain ⟨htables, hscript, hstale, hevents⟩ :=
    (scene_swapped_whole hw "belfry.json" none).2 [] (belfry ["second", "third"])
      (by rw [hbelfry]; rfl)
  have hshut := (scene_swapped_whole hw "cellar.json" none).1 []
    (.triggerWithoutEvent "cellar.json" 0) (by rw [hcellar]; rfl)
  exact ⟨hw, by decide +kernel, hlive, hshut, htables, hscript, hstale _ hlive, hevents⟩

/-- A tile that has been replaced in one belfry is replaced in the next, where a world that begins
there has none; and a script is pending where such a world has none. -/
theorem tiles_outlast_scene :
    let place : TilePlace := (0, 1, 2)
    let w := actAll loadBelfry (ofScene (belfry ["first"])) [.setTile place "moss" 0]
    let w' := (loadScene loadBelfry "belfry.json" none w).2
    let new := (ofScene (belfry ["second", "third"])).placePlayer none none
    Reached loadBelfry w ∧ w'.scene = new.scene ∧
      w'.tile? place = some ("moss", 0) ∧ new.tile? place = none ∧
      w'.pendingScript = some none ∧ new.pendingScript = none := by
  intro place w w' new
  have hw' : w'.tile? place = some ("moss", 0) := by decide +kernel
  exact ⟨⟨_, _, rfl⟩, rfl, hw', rfl, rfl, rfl⟩

end World

end Cutscene
