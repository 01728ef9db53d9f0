import Mathlib.Data.List.Range
import Cutscene.Proofs.Stage.Hosts
import Cutscene.Proofs.World.Firing
import Cutscene.Proofs.World.Slots

/-!
# Tours

A world goes from scene to scene. Its triggers are those of the scene that it is in, but the slots
that they are in have been used by the scenes before: `Toured` is a world with the scenes that it
has been in, and the handles of the triggers of the present one. Nothing but a change of scene
touches triggers and events (`Toured.execute`).

Which of several triggers fires is a matter of their slots. In a world that begins with a scene it
is the one that is listed first. In a world that comes to the scene the triggers that have got used
slots are listed backwards, and there are as many used slots as the largest of the earlier scenes
had triggers (`firedAt?_of_toured`).
-/

namespace Cutscene

/-! ## Triggers of a scene -/

/-- Whether a trigger of a scene fires at a position, if none before it does. -/
def Scene.canFire (scene : Scene) (flags : Flags) (kind : TriggerKind) (p : Point)
    (t : Trigger (List Operation)) : Bool :=
  t.kind = kind && t.area.contains p && t.ifFlag.all flags.has && !t.bindFlag.any flags.has &&
    match t.action with
    | .inlined _ => true
    | .named name => scene.events.any (·.1 == name)

/-- Whether the trigger with a number in a scene fires at a position, if none before it does. -/
def Scene.canFireAt (scene : Scene) (flags : Flags) (kind : TriggerKind) (p : Point) (i : Nat) :
    Bool :=
  scene.triggers[i]?.any (scene.canFire flags kind p)

/-- The greatest number of triggers that one of some scenes has. -/
def mostTriggers (scenes : List Scene) : Nat :=
  (scenes.map (·.triggers.length)).foldr max 0

namespace World

/-- The handles that the triggers of a scene get when a world enters it. -/
def handlesOf (scene : Scene) (w : World) : List Handle :=
  w.triggers.clear.handles (ownTriggers (w.nextOrigin + scene.events.length) scene.triggers)

/-- The number of the trigger that fires, among triggers with some handles. -/
def firedAt? (handles : List Handle) (kind : TriggerKind) (p : Point) (w : World) : Option Nat :=
  match w.fireTrigger kind p with
  | (some _, w) => w.lastTrigger.bind handles.idxOf?
  | (none, _) => none

/-- A world that has been in some scenes, the present one first, and whose triggers have some
handles. -/
inductive Toured (load : String → Reported Scene) : List Scene → List Handle → World → Prop
  | begun (scene : Scene) : Toured load [scene] (blank.handlesOf scene) (ofScene scene)
  | loaded {scenes : List Scene} {handles : List Handle} {w : World} {path : String}
      {lines : List Line} {scene : Scene} (hw : Toured load scenes handles w)
      (hload : load (Text.Path.join w.directory path) = (lines, .ok scene))
      (door : Option String) :
      Toured load (scene :: scenes) (w.handlesOf scene) (loadScene load path door w).2
  /-- Whatever leaves triggers and events alone. -/
  | kept {scenes : List Scene} {handles : List Handle} {w w' : World}
      (hw : Toured load scenes handles w) (htriggers : w'.triggers = w.triggers)
      (hlibrary : w'.library = w.library) : Toured load scenes handles w'

/-! ## What leaves triggers and events alone -/

section

variable {load : String → Reported Scene} {scenes : List Scene} {handles : List Handle}

/-- What leaves the setting of a world on a tour alone leaves the world where it is. -/
theorem Toured.of_setting {w w' : World} (h : Toured load scenes handles w)
    (hsetting : w'.setting = w.setting) : Toured load scenes handles w' :=
  h.kept (congrArg Setting.triggers hsetting) (congrArg Setting.library hsetting)

/-- Whatever is asked of a world on a tour but a change of scene leaves it where it is. -/
theorem stage_keeps_toured (load : String → Reported Scene) (scenes : List Scene)
    (handles : List Handle) : (stage load).Keeps (Toured load scenes handles) :=
  .of_value (stage_keeps_setting load) fun _ _ hsetting h => h.of_setting hsetting

namespace Toured

/-- A trigger that fires leaves a world on a tour where it is. -/
theorem fireTrigger {w : World} (h : Toured load scenes handles w) (kind : TriggerKind)
    (p : Point) : Toured load scenes handles (w.fireTrigger kind p).2 :=
  h.of_setting (setting_fireTrigger kind p w)

/-- A change of scene takes a world on a tour to another scene or leaves it where it is. -/
theorem loadScene {w : World} (h : Toured load scenes handles w) (path : String)
    (door : Option String) :
    ∃ next handles', Toured load (next ++ scenes) handles' (loadScene load path door w).2 := by
  rcases hload : load (Text.Path.join w.directory path) with ⟨lines, error | scene⟩
  · refine ⟨[], handles, h.kept ?_ ?_⟩ <;> simp only [World.loadScene, hload] <;> rfl
  · exact ⟨[scene], _, h.loaded hload door⟩

/-- Whatever an operation does, it takes a world on a tour on or leaves it where it is. -/
theorem execute {w : World} (h : Toured load scenes handles w) (event : Event) (position : Nat)
    (op : Operation) (now : Nat) (entering : Bool) (progress : Progress) (voices : Voices) :
    ∃ next handles', Toured load (next ++ scenes) handles'
      (execute (stage load) event position op now entering progress voices w).state := by
  cases hop : op.loadsScene with
  | false =>
      exact ⟨[], handles, (stage_keeps_toured load scenes handles).execute event position now
        entering progress voices hop h⟩
  | true =>
      cases op with
      | sceneLoad path door =>
          have hsaid := (stage_keeps_toured load scenes handles).say .debug s!"scene load {path}" h
          obtain ⟨next, handles', hloaded⟩ := hsaid.loadScene path door
          refine ⟨next, handles', ?_⟩
          show Toured _ _ _ (sceneLoadStep _ path door voices w).state
          unfold sceneLoadStep
          dsimp only
          split
          · exact hloaded.kept rfl rfl
          · exact hloaded
      | _ => exact absurd hop Bool.false_ne_true

end Toured

/-! ## The triggers of the present scene -/

/-- The triggers and the events are those of a scene, and the triggers are in slots that other
scenes have used. -/
structure Seated (scene : Scene) (earlier : List Scene) (handles : List Handle) (w : World) :
    Prop where
  packed : ∃ vacant occupied, w.triggers.Packed vacant occupied ∧
    vacant.length + occupied.length = mostTriggers (scene :: earlier)
  nodup : handles.Nodup
  length : handles.length = scene.triggers.length
  listed : ∃ origin, w.triggers.toList =
    Arena.slotOrder (mostTriggers earlier) (handles.zip (ownTriggers origin scene.triggers))
  library : ∃ origin, w.library = .ofList origin scene.events

@[simp] theorem length_ownTriggers (origin : Nat) (ts : List (Trigger (List Operation))) :
    (ownTriggers origin ts).length = ts.length := by
  simp [ownTriggers]

/-- A scene that is entered puts its triggers into the slots that are there. -/
theorem Seated.of_entered {scene : Scene} {scenes : List Scene} {w w' : World}
    {vacant occupied : List (Slot (Trigger Event))} (hpacked : w.triggers.Packed vacant occupied)
    (hslots : vacant.length + occupied.length = mostTriggers scenes)
    (htriggers : w'.triggers = w.triggers.clear.insertAll
      (ownTriggers (w.nextOrigin + scene.events.length) scene.triggers))
    (hlibrary : w'.library = .ofList w.nextOrigin scene.events) :
    Seated scene scenes (w.handlesOf scene) w' := by
  refine ⟨?_, hpacked.nodup_handles_clear _, ?_,
    ⟨w.nextOrigin + scene.events.length, ?_⟩, ⟨w.nextOrigin, hlibrary⟩⟩
  · obtain ⟨vacant', occupied', hpacked', hlength⟩ := hpacked.clear.insertAll
      (ownTriggers (w.nextOrigin + scene.events.length) scene.triggers)
    refine ⟨vacant', occupied', htriggers ▸ hpacked', ?_⟩
    rw [hlength, mostTriggers, List.map_cons, List.foldr_cons, Nat.max_comm]
    simp [hslots, mostTriggers]
  · rw [handlesOf, Arena.length_handles, length_ownTriggers]
  · rw [htriggers, hpacked.toList_insertAll_clear, hpacked.size, hslots]
    rfl

/-- On a tour the triggers are those of the present scene, in the slots that earlier scenes have
used. -/
theorem Toured.exists_seated {w : World} (h : Toured load scenes handles w) :
    ∃ scene earlier, scenes = scene :: earlier ∧ Seated scene earlier handles w := by
  induction h with
  | begun scene =>
      exact ⟨scene, [], rfl, .of_entered .empty rfl (triggers_enter scene none blank)
        (library_enter scene none blank)⟩
  | @loaded scenes handles w path lines scene hw hload door ih =>
      obtain ⟨previous, earlier, rfl, hseated⟩ := ih
      obtain ⟨vacant, occupied, hpacked, hslots⟩ := hseated.packed
      refine ⟨scene, _, rfl, .of_entered hpacked hslots ?_ ?_⟩
      · simp only [World.loadScene, hload]
        exact triggers_enter scene door _
      · simp only [World.loadScene, hload]
        exact library_enter scene door _
  | kept _ htriggers hlibrary ih =>
      obtain ⟨scene, earlier, rfl, hseated⟩ := ih
      exact ⟨scene, earlier, rfl, { hseated with
        packed := htriggers ▸ hseated.packed
        listed := htriggers ▸ hseated.listed
        library := hlibrary ▸ hseated.library }⟩

/-! ## Which trigger fires -/

/-- The number is that of the first trigger that is hit and can fire. -/
theorem firedAt?_eq (handles : List Handle) (kind : TriggerKind) (p : Point) (w : World) :
    w.firedAt? handles kind p =
      ((w.triggers.hits kind p).find? fun x => w.canFire x.2).bind (handles.idxOf? ·.1) := by
  have hfound : w.firedAt? handles kind p =
      ((w.firing? kind p).map (·.handle)).bind handles.idxOf? := by
    obtain ⟨journal, ⟨hfires, heq⟩ | ⟨f, hfires, heq⟩⟩ := fireTrigger_cases kind p w
    · rw [firedAt?, heq, hfires]
      rfl
    · rw [firedAt?, heq, hfires]
      rfl
  rw [hfound, map_handle_firing?, Option.bind_map]
  rfl

/-- Whether a trigger fires can be told from the scene and the flags. -/
theorem canFire_map {scene : Scene} {origin : Nat} {w : World}
    (hlibrary : w.library = .ofList origin scene.events) (kind : TriggerKind) (p : Point)
    (f : List Operation → Event) (t : Trigger (List Operation)) :
    ((decide ((t.map f).kind = kind) && (t.map f).area.contains p) && w.canFire (t.map f)) =
      scene.canFire w.chronicle.flags kind p t := by
  have hevent : (w.eventOf? (t.map f)).isSome = match t.action with
      | .inlined _ => true
      | .named name => scene.events.any (·.1 == name) := by
    unfold eventOf? Trigger.map
    cases t.action with
    | inlined _ => rfl
    | named name => exact hlibrary ▸ Library.isSome_find?_ofList origin scene.events name
  have hadmits : w.admits (t.map f) =
      (t.ifFlag.all w.chronicle.flags.has && !t.bindFlag.any w.chronicle.flags.has) := rfl
  rw [canFire, hevent, hadmits, Scene.canFire]
  simp only [Trigger.map, Bool.and_assoc]
  rfl

/-- In a world that has come to a scene the first trigger that can fires, in the order of the slots
that earlier scenes have used. -/
theorem firedAt?_of_toured {scene : Scene} {earlier : List Scene} {w : World}
    (h : Toured load (scene :: earlier) handles w) (kind : TriggerKind) (p : Point) :
    w.firedAt? handles kind p =
      (Arena.slotOrder (mostTriggers earlier) (List.range scene.triggers.length)).find?
        (scene.canFireAt w.chronicle.flags kind p) := by
  obtain ⟨scene', earlier', heq, hseated⟩ := h.exists_seated
  obtain ⟨rfl, rfl⟩ := List.cons.inj heq
  obtain ⟨origin, hlisted⟩ := hseated.listed
  obtain ⟨origin', hlibrary⟩ := hseated.library
  have hlength : handles.length = (ownTriggers origin scene.triggers).length := by
    rw [hseated.length, length_ownTriggers]
  have hcan : ∀ i, (ownTriggers origin scene.triggers)[i]?.any (fun t =>
      (decide (t.kind = kind) && t.area.contains p) && w.canFire t) =
        scene.canFireAt w.chronicle.flags kind p i := by
    intro i
    rw [ownTriggers, List.getElem?_map, Scene.canFireAt]
    simp only [Option.any_map, canFire_map hlibrary, List.getElem?_zipIdx]
  rw [firedAt?_eq, Arena.hits, hlisted, List.find?_filter]
  rw [← length_ownTriggers origin, ← funext hcan,
    ← Arena.find?_slotOrder_zip hseated.nodup hlength]
  simp

/-- In a world that begins with a scene the trigger fires that is listed first of those that can. In
a world that has come to the scene, with the same flags, the triggers in used slots are gone through
backwards, and there are as many used slots as the largest of the earlier scenes had triggers. So
both fire the same trigger if and only if at most one of the triggers in used slots can fire. -/
theorem fires_in_slot_order {load₀ : String → Reported Scene} {scene : Scene}
    {earlier : List Scene} {handles₀ : List Handle} {w w₀ : World}
    (h : Toured load (scene :: earlier) handles w) (h₀ : Toured load₀ [scene] handles₀ w₀)
    (hflags : w₀.chronicle.flags = w.chronicle.flags) (kind : TriggerKind) (p : Point) :
    let can := scene.canFireAt w.chronicle.flags kind p
    let used := mostTriggers earlier
    let numbers := List.range scene.triggers.length
    w₀.firedAt? handles₀ kind p = numbers.find? can ∧
      w.firedAt? handles kind p = ((numbers.take used).reverse ++ numbers.drop used).find? can ∧
      (w.firedAt? handles kind p = w₀.firedAt? handles₀ kind p ↔
        (List.range used).countP can ≤ 1) := by
  intro can used numbers
  have hfirst : w₀.firedAt? handles₀ kind p = numbers.find? can := by
    rw [firedAt?_of_toured h₀, hflags]
    rfl
  have hfired : w.firedAt? handles kind p = (Arena.slotOrder used numbers).find? can :=
    firedAt?_of_toured h kind p
  refine ⟨hfirst, hfired, ?_⟩
  rw [hfirst, hfired]
  refine Arena.find?_slotOrder_range_iff fun i hcan => ?_
  by_contra hle
  unfold can Scene.canFireAt at hcan
  rw [List.getElem?_eq_none (Nat.le_of_not_lt hle)] at hcan
  exact absurd hcan Bool.false_ne_true

end

/-! ## Bells in one place -/

/-- A button in the corner that rings an event. -/
def bell (name : String) : Trigger (List Operation) :=
  ⟨.button, .ofTiles (.zero false) (.zero false) (.ofNat 1) (.ofNat 1), none, none, .named name⟩

/-- A scene of some bells, all of them in one place. -/
def belfry (names : List String) : Scene where
  name := "belfry"
  path := "scene.json"
  events := names.map fun name => (name, [.flagSet name])
  entities := []
  triggers := names.map bell
  flags := []
  script := none
  doors := []
  player := none

/-- Two bells in one place, after a scene of one bell: the first is rung. -/
theorem fires_in_slot_order_belfry :
    let scene := belfry ["first", "second"]
    let load : String → Reported Scene := fun _ => ([], .ok scene)
    let before := ofScene (belfry ["only"])
    let w := (loadScene load "scene.json" none before).2
    let w₀ := ofScene scene
    let can := scene.canFireAt w.chronicle.flags .button .origin
    Toured load [scene, belfry ["only"]] (before.handlesOf scene) w ∧
      Toured load [scene] (blank.handlesOf scene) w₀ ∧ w₀.chronicle.flags = w.chronicle.flags ∧
      w₀.firedAt? (blank.handlesOf scene) .button .origin = [0, 1].find? can ∧
      w.firedAt? (before.handlesOf scene) .button .origin = [0, 1].find? can ∧
      w.firedAt? (before.handlesOf scene) .button .origin =
        w₀.firedAt? (blank.handlesOf scene) .button .origin := by
  intro scene load before w w₀ can
  have h : Toured load [scene, belfry ["only"]] (before.handlesOf scene) w :=
    .loaded (.begun _) rfl none
  have h₀ : Toured load [scene] (blank.handlesOf scene) w₀ := .begun scene
  obtain ⟨hfirst, hfired, hsame⟩ := fires_in_slot_order h h₀ rfl .button .origin
  exact ⟨h, h₀, rfl, hfirst, hfired, hsame.mpr List.countP_le_length⟩

/-- A scene of two bells in one place that is loaded again: first the first bell is rung, and then
the second. -/
theorem second_bell_fires :
    let scene := belfry ["first", "second"]
    let load : String → Reported Scene := fun _ => ([], .ok scene)
    let w₀ := ofScene scene
    let w := (loadScene load "scene.json" none w₀).2
    Toured load [scene] (blank.handlesOf scene) w₀ ∧
      Toured load [scene, scene] (w₀.handlesOf scene) w ∧
      w₀.chronicle.flags = w.chronicle.flags ∧
      w₀.firedAt? (blank.handlesOf scene) .button .origin = some 0 ∧
      w.firedAt? (w₀.handlesOf scene) .button .origin = some 1 :=
  ⟨.begun _, .loaded (.begun _) rfl none, rfl, by decide +kernel, by decide +kernel⟩

end World

end Cutscene
