import Cutscene.Event.Library
import Cutscene.Proofs.Json.Entries
import Cutscene.Proofs.Text.ByteOrder
import Cutscene.Scene

/-!
# What loading makes of a declaration

Loading goes through the events of a declaration and then through its triggers, and stops at the
first that cannot be loaded. So a scene is loaded exactly if every one of them can be
(`SceneDeclaration.Loads`). The scene is then what the declaration says
(`SceneDeclaration.Describes`), and otherwise the error names the first culprit
(`SceneDeclaration.Blames`). The events are sorted, so the first of them to fail is the least, in
the order of the bytes of its name.
-/

namespace Cutscene

open Json Numeric

/-! ## Loops that stop at an error -/

section loops

variable {ε α β : Type} {f : α → Except ε β} {xs : List α}

theorem mapM_eq_ok_iff {ys : List β} :
    xs.mapM f = .ok ys ↔ List.Forall₂ (fun x y => f x = .ok y) xs ys := by
  induction xs generalizing ys with
  | nil =>
      rw [List.mapM_nil, List.forall₂_nil_left_iff]
      exact ⟨fun h => (Except.ok.inj h).symm, fun h => congrArg _ h.symm⟩
  | cons x xs ih =>
      rw [List.mapM_cons, List.forall₂_cons_left_iff]
      constructor
      · intro h
        obtain ⟨y, hy, h⟩ := Draft.of_bind_eq_ok h
        obtain ⟨rest, hrest, h⟩ := Draft.of_bind_eq_ok h
        cases h
        exact ⟨y, rest, hy, ih.1 hrest, rfl⟩
      · rintro ⟨y, rest, hy, hrest, rfl⟩
        rw [hy, ih.2 hrest]
        rfl

theorem exists_mapM_eq_ok_iff :
    (∃ ys, xs.mapM f = .ok ys) ↔ ∀ x ∈ xs, ∃ y, f x = .ok y := by
  simp only [mapM_eq_ok_iff]
  induction xs with
  | nil => simp
  | cons x xs ih =>
      simp only [List.forall₂_cons_left_iff, List.forall_mem_cons, ← ih]
      constructor
      · rintro ⟨-, y, rest, hy, hrest, rfl⟩
        exact ⟨⟨y, hy⟩, rest, hrest⟩
      · rintro ⟨⟨y, hy⟩, rest, hrest⟩
        exact ⟨y :: rest, y, rest, hy, hrest, rfl⟩

/-- A loop stops at the first place that has an error, and with that error. -/
theorem mapM_eq_error_iff {e : ε} :
    xs.mapM f = .error e ↔ ∃ (i : Nat) (x : α), xs[i]? = some x ∧ f x = .error e ∧
      ∀ j < i, ∀ y, xs[j]? = some y → ∃ b, f y = .ok b := by
  induction xs with
  | nil =>
      rw [List.mapM_nil]
      exact iff_of_false (fun h => by cases h) (fun ⟨_, _, h, _⟩ => by cases h)
  | cons x xs ih =>
      rw [List.mapM_cons]
      cases hx : f x with
      | error e' =>
          constructor
          · intro h
            obtain rfl : e' = e := Except.error.inj h
            exact ⟨0, x, rfl, hx, fun j hj => absurd hj (Nat.not_lt_zero j)⟩
          · rintro ⟨_ | i, y, hget, hy, hbefore⟩
            · obtain rfl := Option.some.inj hget
              rw [hx] at hy
              exact congrArg _ (Except.error.inj hy)
            · obtain ⟨b, hb⟩ := hbefore 0 (Nat.succ_pos i) x rfl
              rw [hx] at hb
              cases hb
      | ok b =>
          have hrest : (do let ys ← xs.mapM f; pure (b :: ys) : Except ε (List β)) = .error e ↔
              xs.mapM f = .error e := by
            cases xs.mapM f with
            | error e' => exact Iff.rfl
            | ok ys => exact iff_of_false (fun h => by cases h) (fun h => by cases h)
          refine hrest.trans (ih.trans ⟨?_, ?_⟩)
          · rintro ⟨i, y, hget, hy, hbefore⟩
            refine ⟨i + 1, y, hget, hy, fun j hj z hz => ?_⟩
            cases j with
            | zero => exact ⟨b, Option.some.inj hz ▸ hx⟩
            | succ j => exact hbefore j (Nat.lt_of_succ_lt_succ hj) z hz
          · rintro ⟨_ | i, y, hget, hy, hbefore⟩
            · rw [← Option.some.inj hget, hx] at hy
              cases hy
            · exact ⟨i, y, hget, hy, fun j hj => hbefore (j + 1) (Nat.succ_lt_succ hj)⟩

end loops

/-! ## What a declaration says -/

/-- Every event has a body that loads, and every trigger has something to run: a body of its own
that loads, or else the name of an event. -/
structure SceneDeclaration.Loads (d : SceneDeclaration) : Prop where
  events : ∀ entry ∈ d.events, ∃ ops, loadOperations? entry.2 = some ops
  actions : ∀ t ∈ d.triggers, t.inlined ≠ none ∨ t.event ≠ none
  inlined : ∀ t ∈ d.triggers, ∀ body, t.inlined = some body →
    ∃ ops, loadOperations? body = some ops

/-- The trigger is what a declaration says. Its area is in pixels, an empty name of a flag is none,
and a body of its own comes before the name of an event. -/
structure TriggerDeclaration.Describes (d : TriggerDeclaration) (t : Trigger (List Operation)) :
    Prop where
  kind : t.kind = d.kind
  area : t.area = ⟨d.x * tileSize, d.y * tileSize, d.width * tileSize, d.height * tileSize⟩
  ifFlag : ∀ flag, t.ifFlag = some flag ↔ d.ifFlag = some flag ∧ flag ≠ ""
  bindFlag : ∀ flag, t.bindFlag = some flag ↔ d.bindFlag = some flag ∧ flag ≠ ""
  inlined : ∀ ops, t.action = .inlined ops ↔
    ∃ body, d.inlined = some body ∧ loadOperations? body = some ops
  named : ∀ name, t.action = .named name ↔ d.inlined = none ∧ d.event = some name

/-- The scene is what a declaration says. The library of its events has those that are declared and
no others, each with what its own body loads as, and its triggers are the declared ones in their
order. Positions are in pixels. -/
structure SceneDeclaration.Describes (d : SceneDeclaration) (path : String) (scene : Scene) :
    Prop where
  name : scene.name = d.name
  path : scene.path = path
  declared : ∀ origin name, ((Library.ofList origin scene.events).find? name).isSome ↔
    name ∈ d.events.map Prod.fst
  bodies : ∀ origin name body event, (name, body) ∈ d.events →
    (Library.ofList origin scene.events).find? name = some event →
    event.name = some name ∧ loadOperations? body = some event.operations
  triggers : List.Forall₂ TriggerDeclaration.Describes d.triggers scene.triggers
  entities : scene.entities = d.entities.map fun e => (e.name, ⟨e.x * tileSize, e.y * tileSize⟩)
  flags : scene.flags = d.flags
  script : scene.script = d.script.map (Text.Path.join scene.directory)
  doors : scene.doors = d.doors.map fun door =>
    (door.1, ⟨door.2.1 * tileSize, door.2.2 * tileSize⟩)
  player : scene.player = d.player.map fun p => ⟨p.1 * tileSize, p.2 * tileSize⟩

/-- Nothing keeps a trigger from being loaded. -/
def TriggerDeclaration.Loads (d : TriggerDeclaration) : Prop :=
  match d.inlined with
  | some body => ∃ ops, loadOperations? body = some ops
  | none => ∃ name, d.event = some name

/-- The error names the first culprit: of the events that fail the one with the least name, byte by
byte, and if none fails the first trigger that does. -/
inductive SceneDeclaration.Blames (d : SceneDeclaration) (path : String) : SceneError → Prop
  | event {name : String} {body : Json} (hdeclared : (name, body) ∈ d.events)
      (hfails : loadOperations? body = none)
      (hleast : ∀ other ∈ d.events, loadOperations? other.2 = none →
        other.1 = name ∨ Text.bytes name < Text.bytes other.1) :
      Blames d path (.event path name)
  | inlined {index : Nat} {t : TriggerDeclaration} {body : Json}
      (hevents : ∀ entry ∈ d.events, ∃ ops, loadOperations? entry.2 = some ops)
      (hfirst : ∀ j < index, ∀ u, d.triggers[j]? = some u → u.Loads)
      (hdeclared : d.triggers[index]? = some t) (hbody : t.inlined = some body)
      (hfails : loadOperations? body = none) :
      Blames d path (.event path s!"trigger #{index}")
  | missing {index : Nat} {t : TriggerDeclaration}
      (hevents : ∀ entry ∈ d.events, ∃ ops, loadOperations? entry.2 = some ops)
      (hfirst : ∀ j < index, ∀ u, d.triggers[j]? = some u → u.Loads)
      (hdeclared : d.triggers[index]? = some t) (hbody : t.inlined = none)
      (hevent : t.event = none) :
      Blames d path (.triggerWithoutEvent path index)

/-! ## The events -/

/-- Loads one event. -/
def loadEvent (path : String) (entry : String × Json) :
    Except SceneError (String × List Operation) :=
  match loadOperations? entry.2 with
  | none => .error (.event path entry.1)
  | some ops => .ok (entry.1, ops)

theorem loadEvents_snd (path : String) (entries : List (String × Json)) :
    (loadEvents path entries).2 = entries.mapM (loadEvent path) := by
  induction entries with
  | nil => rfl
  | cons entry rest ih =>
      rw [loadEvents, List.mapM_cons, loadEvent, ← ih]
      cases loadOperations? entry.2 with
      | none => rfl
      | some ops => rcases loadEvents path rest with ⟨lines, e | events⟩ <;> rfl

theorem loadEvent_eq_ok_iff {path : String} {entry : String × Json}
    {out : String × List Operation} :
    loadEvent path entry = .ok out ↔ out.1 = entry.1 ∧ loadOperations? entry.2 = some out.2 := by
  unfold loadEvent
  cases loadOperations? entry.2 with
  | none => simp
  | some ops => simp [Prod.ext_iff, eq_comm]

theorem loadEvent_eq_error_iff {path : String} {entry : String × Json} {e : SceneError} :
    loadEvent path entry = .error e ↔ loadOperations? entry.2 = none ∧ e = .event path entry.1 := by
  unfold loadEvent
  cases loadOperations? entry.2 with
  | none => simp [eq_comm]
  | some ops => simp

theorem exists_loadEvent_iff {path : String} {entry : String × Json} :
    (∃ out, loadEvent path entry = .ok out) ↔ ∃ ops, loadOperations? entry.2 = some ops := by
  simp only [loadEvent_eq_ok_iff, Prod.exists]
  exact ⟨fun ⟨_, ops, _, h⟩ => ⟨ops, h⟩, fun ⟨ops, h⟩ => ⟨_, ops, rfl, h⟩⟩

/-- The first event that fails is the least one. -/
theorem loadEvents_eq_error_iff {path : String} {entries : List (String × Json)}
    (hsorted : Sorted entries) {e : SceneError} :
    (loadEvents path entries).2 = .error e ↔
      ∃ name body, (name, body) ∈ entries ∧ loadOperations? body = none ∧
        (∀ other ∈ entries, loadOperations? other.2 = none →
          other.1 = name ∨ Text.bytes name < Text.bytes other.1) ∧ e = .event path name := by
  rw [loadEvents_snd, mapM_eq_error_iff]
  simp only [loadEvent_eq_error_iff, exists_loadEvent_iff]
  constructor
  · rintro ⟨i, ⟨name, body⟩, hget, ⟨hfails, rfl⟩, hbefore⟩
    refine ⟨name, body, List.mem_of_getElem? hget, hfails, fun other hother hnone => ?_, rfl⟩
    obtain ⟨j, hj⟩ := List.mem_iff_getElem?.1 hother
    rcases lt_trichotomy j i with hlt | rfl | hgt
    · obtain ⟨ops, hops⟩ := hbefore j hlt other hj
      rw [hnone] at hops
      cases hops
    · exact .inl (congrArg Prod.fst (Option.some.inj (hj.symm.trans hget)))
    · exact .inr (Text.bytes_lt_iff.2 (hsorted.lt_of_getElem? hgt hget hj))
  · rintro ⟨name, body, hmem, hfails, hleast, rfl⟩
    obtain ⟨i, hi⟩ := List.mem_iff_getElem?.1 hmem
    refine ⟨i, (name, body), hi, ⟨hfails, rfl⟩, fun j hj other hother => ?_⟩
    rw [← Option.ne_none_iff_exists']
    intro hnone
    have hlt : other.1 < name := hsorted.lt_of_getElem? hj hother hi
    rcases hleast other (List.mem_of_getElem? hother) hnone with heq | hgt
    · exact hlt.ne heq
    · exact hlt.not_gt (Text.bytes_lt_iff.1 hgt)

/-- What is left of an event is its name and what its body loads as. -/
theorem loadEvents_eq_ok_iff {path : String} {entries : List (String × Json)}
    {events : List (String × List Operation)} :
    (loadEvents path entries).2 = .ok events ↔
      List.Forall₂ (fun entry event : String × _ => event.1 = entry.1 ∧
        loadOperations? entry.2 = some event.2) entries events := by
  rw [loadEvents_snd, mapM_eq_ok_iff]
  simp only [loadEvent_eq_ok_iff]

theorem map_fst_of_loadEvents {path : String} {entries : List (String × Json)}
    {events : List (String × List Operation)} (h : (loadEvents path entries).2 = .ok events) :
    events.map Prod.fst = entries.map Prod.fst := by
  rw [← List.forall₂_eq_eq_eq, List.forall₂_map_left_iff, List.forall₂_map_right_iff]
  exact (loadEvents_eq_ok_iff.1 h).flip.imp fun _ _ hentry => hentry.1

theorem exists_entry_of_loadEvents {path : String} {entries : List (String × Json)}
    {events : List (String × List Operation)} (h : (loadEvents path entries).2 = .ok events)
    {event : String × List Operation} (hevent : event ∈ events) :
    ∃ body, (event.1, body) ∈ entries ∧ loadOperations? body = some event.2 := by
  obtain ⟨hlength, hloaded⟩ := List.forall₂_iff_zip.1 (loadEvents_eq_ok_iff.1 h)
  obtain ⟨i, hi, rfl⟩ := List.mem_iff_getElem.1 hevent
  have hzip : (entries[i], events[i]) ∈ entries.zip events :=
    List.mem_iff_getElem.2 ⟨i, by simpa [hlength] using hi, List.getElem_zip⟩
  obtain ⟨hname, hops⟩ := hloaded hzip
  refine ⟨entries[i].2, ?_, hops⟩
  rw [hname]
  exact List.getElem_mem _

/-! ## The triggers -/

theorem loadTriggers_snd (path : String) (index : Nat) (ds : List TriggerDeclaration) :
    (loadTriggers path index ds).2 =
      (ds.zipIdx index).mapM fun d => (loadTrigger path d.2 d.1).2 := by
  induction ds generalizing index with
  | nil => rfl
  | cons d rest ih =>
      rw [loadTriggers, List.zipIdx_cons, List.mapM_cons, ← ih]
      rcases loadTrigger path index d with ⟨lines, e | t⟩
      · rfl
      · rcases loadTriggers path (index + 1) rest with ⟨more, e | triggers⟩ <;> rfl

theorem TriggerDeclaration.loads_iff {d : TriggerDeclaration} :
    d.Loads ↔ (d.inlined ≠ none ∨ d.event ≠ none) ∧
      ∀ body, d.inlined = some body → ∃ ops, loadOperations? body = some ops := by
  unfold Loads
  cases d.inlined with
  | none => simp [Option.ne_none_iff_exists']
  | some body => simp

theorem gate_eq_some_iff {flag : Option String} {name : String} :
    gate flag = some name ↔ flag = some name ∧ name ≠ "" := by
  simp [gate, Option.filter_eq_some_iff]

/-- What is common to the triggers that a declaration can become. -/
theorem TriggerDeclaration.describes_withAction {d : TriggerDeclaration}
    {action : TriggerAction (List Operation)}
    (hinlined : ∀ ops, action = .inlined ops ↔
      ∃ body, d.inlined = some body ∧ loadOperations? body = some ops)
    (hnamed : ∀ name, action = .named name ↔ d.inlined = none ∧ d.event = some name) :
    d.Describes (d.withAction action) where
  kind := rfl
  area := rfl
  ifFlag _ := gate_eq_some_iff
  bindFlag _ := gate_eq_some_iff
  inlined := hinlined
  named := hnamed

theorem describes_of_loadTrigger {path : String} {index : Nat} {d : TriggerDeclaration}
    {t : Trigger (List Operation)} (h : (loadTrigger path index d).2 = .ok t) :
    d.Describes t := by
  unfold loadTrigger at h
  cases hinlined : d.inlined with
  | some body =>
      rw [hinlined] at h
      cases hops : loadOperations? body with
      | none => simp [hops] at h
      | some ops =>
          simp only [hops] at h
          cases h
          apply d.describes_withAction
          · simp [hinlined, hops]
          · simp [hinlined]
  | none =>
      cases hevent : d.event with
      | none => simp [hinlined, hevent] at h
      | some name =>
          simp only [hinlined, hevent] at h
          cases h
          apply d.describes_withAction
          · simp [hinlined]
          · simp [hinlined, hevent]

theorem exists_loadTrigger_iff {path : String} {index : Nat} {d : TriggerDeclaration} :
    (∃ t, (loadTrigger path index d).2 = .ok t) ↔ d.Loads := by
  unfold loadTrigger TriggerDeclaration.Loads
  cases d.inlined with
  | some body => cases h : loadOperations? body <;> simp [h]
  | none => cases d.event <;> simp

theorem loadTrigger_eq_error_iff {path : String} {index : Nat} {d : TriggerDeclaration}
    {e : SceneError} :
    (loadTrigger path index d).2 = .error e ↔
      (∃ body, d.inlined = some body ∧ loadOperations? body = none ∧
        e = .event path s!"trigger #{index}") ∨
      (d.inlined = none ∧ d.event = none ∧ e = .triggerWithoutEvent path index) := by
  unfold loadTrigger
  cases d.inlined with
  | some body => cases h : loadOperations? body <;> simp [h, eq_comm]
  | none => cases d.event <;> simp [eq_comm]

/-- Triggers are loaded one after the other. -/
theorem describes_of_loadTriggers {path : String} {index : Nat} {ds : List TriggerDeclaration}
    {triggers : List (Trigger (List Operation))}
    (h : (loadTriggers path index ds).2 = .ok triggers) :
    List.Forall₂ TriggerDeclaration.Describes ds triggers := by
  rw [loadTriggers_snd, mapM_eq_ok_iff] at h
  have hmap : List.Forall₂ TriggerDeclaration.Describes ((ds.zipIdx index).map Prod.fst)
      triggers := by
    rw [List.forall₂_map_left_iff]
    exact h.imp fun _ _ => describes_of_loadTrigger
  rwa [List.zipIdx_map_fst] at hmap

theorem exists_loadTriggers_iff (path : String) {ds : List TriggerDeclaration} :
    (∃ triggers, (loadTriggers path 0 ds).2 = .ok triggers) ↔ ∀ t ∈ ds, t.Loads := by
  simp only [loadTriggers_snd, exists_mapM_eq_ok_iff, exists_loadTrigger_iff]
  have hall : (∀ t ∈ (ds.zipIdx).map Prod.fst, t.Loads) ↔ ∀ d ∈ ds.zipIdx, d.1.Loads :=
    List.forall_mem_map
  rw [List.zipIdx_map_fst] at hall
  exact hall.symm

/-- The first trigger that fails, and why. -/
theorem loadTriggers_eq_error_iff {path : String} {ds : List TriggerDeclaration}
    {e : SceneError} :
    (loadTriggers path 0 ds).2 = .error e ↔
      ∃ (i : Nat) (t : TriggerDeclaration), ds[i]? = some t ∧
        (loadTrigger path i t).2 = .error e ∧ ∀ j < i, ∀ u, ds[j]? = some u → u.Loads := by
  rw [loadTriggers_snd, mapM_eq_error_iff]
  simp only [exists_loadTrigger_iff, List.getElem?_zipIdx, Option.map_eq_some_iff, Nat.zero_add]
  constructor
  · rintro ⟨i, -, ⟨t, ht, rfl⟩, herror, hbefore⟩
    exact ⟨i, t, ht, herror, fun j hj u hu => hbefore j hj (u, j) ⟨u, hu, rfl⟩⟩
  · rintro ⟨i, t, ht, herror, hbefore⟩
    refine ⟨i, (t, i), ⟨t, ht, rfl⟩, herror, ?_⟩
    rintro j hj - ⟨u, hu, rfl⟩
    exact hbefore j hj u hu

/-! ## The scene -/

namespace SceneDeclaration

variable {d : SceneDeclaration} {path text : String}

theorem loads_iff : d.Loads ↔
    (∀ entry ∈ d.events, ∃ ops, loadOperations? entry.2 = some ops) ∧
      ∀ t ∈ d.triggers, t.Loads := by
  constructor
  · rintro ⟨hevents, hactions, hinlined⟩
    exact ⟨hevents, fun t ht => TriggerDeclaration.loads_iff.2 ⟨hactions t ht, hinlined t ht⟩⟩
  · rintro ⟨hevents, htriggers⟩
    exact ⟨hevents, fun t ht => (TriggerDeclaration.loads_iff.1 (htriggers t ht)).1,
      fun t ht => (TriggerDeclaration.loads_iff.1 (htriggers t ht)).2⟩

/-- A scene is made of events and triggers that are loaded. -/
theorem ofDeclaration_eq_ok_iff {scene : Scene} :
    (Scene.ofDeclaration path d).2 = .ok scene ↔
      ∃ events triggers, (loadEvents path d.events).2 = .ok events ∧
        (loadTriggers path 0 d.triggers).2 = .ok triggers ∧
        scene = .assemble path d events triggers := by
  unfold Scene.ofDeclaration
  rcases loadEvents path d.events with ⟨lines, e | events⟩
  · simp
  · rcases loadTriggers path 0 d.triggers with ⟨more, e | triggers⟩ <;> simp [eq_comm]

/-- An error comes from the events or, if they are loaded, from the triggers. -/
theorem ofDeclaration_eq_error_iff {e : SceneError} :
    (Scene.ofDeclaration path d).2 = .error e ↔
      (loadEvents path d.events).2 = .error e ∨
        (∃ events, (loadEvents path d.events).2 = .ok events) ∧
          (loadTriggers path 0 d.triggers).2 = .error e := by
  unfold Scene.ofDeclaration
  rcases loadEvents path d.events with ⟨lines, e' | events⟩
  · simp
  · rcases loadTriggers path 0 d.triggers with ⟨more, e' | triggers⟩ <;> simp

theorem exists_loadEvents_iff (path : String) {entries : List (String × Json)} :
    (∃ events, (loadEvents path entries).2 = .ok events) ↔
      ∀ entry ∈ entries, ∃ ops, loadOperations? entry.2 = some ops := by
  simp only [loadEvents_snd, exists_mapM_eq_ok_iff, exists_loadEvent_iff]

theorem exists_ofDeclaration_iff :
    (∃ scene, (Scene.ofDeclaration path d).2 = .ok scene) ↔ d.Loads := by
  rw [loads_iff, ← exists_loadEvents_iff path, ← exists_loadTriggers_iff path]
  simp only [ofDeclaration_eq_ok_iff]
  constructor
  · rintro ⟨-, events, triggers, hevents, htriggers, rfl⟩
    exact ⟨⟨events, hevents⟩, triggers, htriggers⟩
  · rintro ⟨⟨events, hevents⟩, triggers, htriggers⟩
    exact ⟨_, events, triggers, hevents, htriggers, rfl⟩

theorem describes_of_ofDeclaration (hsorted : Sorted d.events) {scene : Scene}
    (h : (Scene.ofDeclaration path d).2 = .ok scene) : d.Describes path scene := by
  obtain ⟨events, triggers, hevents, htriggers, rfl⟩ := ofDeclaration_eq_ok_iff.1 h
  refine ⟨rfl, rfl, fun origin name => ?_, fun origin name body event hdeclared hfind => ?_,
    describes_of_loadTriggers htriggers, rfl, rfl, rfl, rfl, rfl⟩
  · change ((Library.ofList origin events).find? name).isSome ↔ _
    rw [Library.isSome_find?_ofList, ← map_fst_of_loadEvents hevents]
    simp
  · have hentry := Library.map_find?_ofList origin events name
    rw [show (Library.ofList origin events).find? name = some event from hfind,
      Option.map_some] at hentry
    obtain ⟨entry, hfound, heq⟩ := Option.map_eq_some_iff.1 hentry.symm
    obtain ⟨hname, hoperations⟩ := Prod.mk.inj heq
    have hfst : entry.1 = name := by simpa using List.find?_some hfound
    have hmem : entry ∈ events := List.mem_reverse.1 (List.mem_of_find?_eq_some hfound)
    -- No other body is declared under the name.
    obtain ⟨body', hbody', hops⟩ := exists_entry_of_loadEvents hevents hmem
    rw [hfst] at hname hbody'
    have hsame : some body' = some body :=
      ((lookup_eq_some_iff hsorted.distinct).2 hbody').symm.trans
        ((lookup_eq_some_iff hsorted.distinct).2 hdeclared)
    rw [← Option.some.inj hsame, hops, hoperations]
    exact ⟨hname.symm, rfl⟩

theorem blames_iff (hsorted : Sorted d.events) {e : SceneError} :
    (Scene.ofDeclaration path d).2 = .error e ↔ d.Blames path e := by
  rw [ofDeclaration_eq_error_iff, loadEvents_eq_error_iff hsorted, exists_loadEvents_iff,
    loadTriggers_eq_error_iff]
  simp only [loadTrigger_eq_error_iff]
  constructor
  · rintro (⟨name, body, hmem, hfails, hleast, rfl⟩ |
      ⟨hevents, i, t, hget, ⟨body, hbody, hfails, rfl⟩ | ⟨hbody, hevent, rfl⟩, hfirst⟩)
    · exact .event hmem hfails hleast
    · exact .inlined hevents hfirst hget hbody hfails
    · exact .missing hevents hfirst hget hbody hevent
  · rintro (⟨hmem, hfails, hleast⟩ | ⟨hevents, hfirst, hget, hbody, hfails⟩ |
      ⟨hevents, hfirst, hget, hbody, hevent⟩)
    · exact .inl ⟨_, _, hmem, hfails, hleast, rfl⟩
    · exact .inr ⟨hevents, _, _, hget, .inl ⟨_, hbody, hfails, rfl⟩, hfirst⟩
    · exact .inr ⟨hevents, _, _, hget, .inr ⟨hbody, hevent, rfl⟩, hfirst⟩

/-- A text that declares a scene is loaded exactly if every event and every trigger of the
declaration can be, and then as the declaration says. Otherwise the error names the first
culprit. -/
theorem loaded_or_blamed (path : String) (h : ofText text = .ok d) :
    ((∃ scene, (Scene.ofText path text).2 = .ok scene) ↔ d.Loads) ∧
      (∀ scene, (Scene.ofText path text).2 = .ok scene → d.Describes path scene) ∧
      ∀ e, (Scene.ofText path text).2 = .error e ↔ d.Blames path e := by
  have hsorted := sorted_events h
  have hscene : Scene.ofText path text = Scene.ofDeclaration path d := by rw [Scene.ofText, h]
  rw [hscene]
  exact ⟨exists_ofDeclaration_iff, fun scene => describes_of_ofDeclaration hsorted,
    fun e => blames_iff hsorted⟩

/-- A scene with three events, two of which have no operations but a number. -/
def yardText : String :=
  "\x7b\"name\":\"yard\",\"events\":\x7b\"well\":0,\"gate\":1,\"bell\":[]\x7d\x7d"

theorem tokens_eq_foldl_toList (text : String) :
    tokens text = Lexing.finish (text.toList.foldl Lexing.step (.between, #[])) := by
  rw [tokens, String.foldl_eq_foldl_toList]

/-- Of the two that fail the one with the lesser name is blamed, though it stands after the
other. -/
theorem loaded_or_blamed_yard : ∃ d, ofText yardText = .ok d ∧ ¬ d.Loads ∧
    d.Blames "yard.json" (.event "yard.json" "gate") := by
  have hdeclared : (ofText yardText).isOk = true := by
    rw [ofText, readText, Document.ofText, tokens_eq_foldl_toList]
    decide +kernel
  have herror : (match (Scene.ofText "yard.json" yardText).2 with
      | .error e => some e
      | .ok _ => none) = some (.event "yard.json" "gate") := by
    rw [Scene.ofText, ofText, readText, Document.ofText, tokens_eq_foldl_toList]
    decide +kernel
  cases hd : ofText yardText with
  | error fault =>
      rw [hd] at hdeclared
      cases hdeclared
  | ok d =>
      obtain ⟨hloads, -, hblames⟩ := loaded_or_blamed "yard.json" hd
      cases hscene : (Scene.ofText "yard.json" yardText).2 with
      | error e =>
          rw [hscene] at herror hloads
          obtain rfl := Option.some.inj herror
          refine ⟨d, rfl, fun h => ?_, (hblames _).1 hscene⟩
          obtain ⟨scene, hok⟩ := hloads.2 h
          cases hok
      | ok scene =>
          rw [hscene] at herror
          cases herror

end SceneDeclaration

end Cutscene
