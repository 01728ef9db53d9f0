import Mathlib.Data.DFinsupp.WellFounded
import Mathlib.Order.Lattice.Nat
import Mathlib.Order.WithBot
import Cutscene.Proofs.Session.SceneChanges

/-!
# Scenes that load downwards

If scenes have ranks and load only scenes of lower rank, every tick ends, whatever is on the stack.
It is not enough that each load goes downwards: old events stay on the stack, and they call by name
into whatever library is current.

The level of an event is the least rank that all it loads itself stays below, and the ceiling of a
library bounds the levels of its events. Above the ceiling no frame can come about but by an inline
call, so the operations that are left on each of those levels are a measure, compared from the
highest level down (`potential`). A turn that keeps the scene does not raise it. A turn that enters
a scene lowers it: either operations above the ceiling were used up, or the ceiling comes down.
-/

namespace Cutscene

section

variable (load : String → Reported Scene) (rank : Scene → ℕ)

/-- Whatever scene an event loads itself, from whatever directory, is below a rank. -/
def Event.LoadsBelow (k : ℕ) (e : Event) : Prop :=
  ∀ e', Relation.ReflTransGen Event.Holds e e' →
    ∀ path door, .sceneLoad path door ∈ e'.operations →
      ∀ directory lines scene,
        load (Text.Path.join directory path) = (lines, .ok scene) → rank scene < k

/-- Scenes load only scenes of lower rank, and the ranks are bounded. -/
structure Descends (top : ℕ) : Prop where
  lt_top : ∀ path lines scene, load path = (lines, .ok scene) → rank scene < top
  loadsBelow : ∀ path lines scene, load path = (lines, .ok scene) →
    ∀ name operations, (name, operations) ∈ scene.events → ∀ origin,
      (Event.make origin (some name) operations).LoadsBelow load rank (rank scene)

/-- The least rank that all an event loads is below. -/
noncomputable def Event.level (e : Event) : ℕ := sInf {k | e.LoadsBelow load rank k}

/-- The least rank that all the events of a library load is below. -/
noncomputable def Library.ceiling (lib : Library) : ℕ :=
  sInf {k | ∀ name e, lib.find? name = some e → e.LoadsBelow load rank k}

end

section

variable {load : String → Reported Scene} {rank : Scene → ℕ} {top : ℕ}

theorem Event.LoadsBelow.of_holds {e e' : Event} {k : ℕ} (h : e.LoadsBelow load rank k)
    (he : e.Holds e') : e'.LoadsBelow load rank k :=
  fun e'' he'' => h e'' (.head he he'')

theorem Event.level_le {e : Event} {k : ℕ} (h : e.LoadsBelow load rank k) :
    e.level load rank ≤ k :=
  Nat.sInf_le h

theorem Library.ceiling_le {lib : Library} {k : ℕ}
    (h : ∀ name e, lib.find? name = some e → e.LoadsBelow load rank k) :
    lib.ceiling load rank ≤ k :=
  Nat.sInf_le h

namespace Descends

theorem loadsBelow_top (h : Descends load rank top) (e : Event) : e.LoadsBelow load rank top :=
  fun _ _ _ _ _ _ _ _ hload => h.lt_top _ _ _ hload

theorem loadsBelow_level (h : Descends load rank top) (e : Event) :
    e.LoadsBelow load rank (e.level load rank) :=
  Nat.sInf_mem (s := {k | e.LoadsBelow load rank k}) ⟨top, h.loadsBelow_top e⟩

theorem level_le_top (h : Descends load rank top) (e : Event) : e.level load rank ≤ top :=
  Event.level_le (h.loadsBelow_top e)

theorem ceiling_le_top (h : Descends load rank top) (lib : Library) :
    lib.ceiling load rank ≤ top :=
  Library.ceiling_le fun _ e _ => h.loadsBelow_top e

theorem level_le_ceiling (h : Descends load rank top) {lib : Library} {name : String} {e : Event}
    (hfind : lib.find? name = some e) : e.level load rank ≤ lib.ceiling load rank := by
  have hmem : lib.ceiling load rank ∈
      {k | ∀ name e, lib.find? name = some e → e.LoadsBelow load rank k} :=
    Nat.sInf_mem ⟨top, fun _ e _ => h.loadsBelow_top e⟩
  exact Event.level_le (hmem name e hfind)

theorem level_le_of_holds (h : Descends load rank top) {e e' : Event} (he : e.Holds e') :
    e'.level load rank ≤ e.level load rank :=
  Event.level_le ((h.loadsBelow_level e).of_holds he)

/-- The library of a scene has its ceiling at the rank of the scene. -/
theorem ceiling_ofList_le (h : Descends load rank top) {path : String} {lines : List Line}
    {scene : Scene} (hload : load path = (lines, .ok scene)) (origin : ℕ) :
    (Library.ofList origin scene.events).ceiling load rank ≤ rank scene := by
  refine Library.ceiling_le ?_
  intro name e hfind
  obtain ⟨name', operations, n, hmem, rfl⟩ := Library.exists_of_find?_ofList hfind
  exact h.loadsBelow path lines scene hload name' operations hmem n

end Descends

end

/-! ## What is left on each level -/

/-- The size of the operations that are left of a frame, with all that they hold inline. -/
noncomputable def Frame.left (f : Frame) : ℕ := sizeOf (f.event.operations.drop f.resumed.cursor)

theorem Frame.left_resumed (f : Frame) : f.resumed.left = f.left := by
  rw [left, resumed_of_not_awaiting f.awaitingChild_resumed, event_resumed, left]

theorem Frame.left_await (f : Frame) : f.await.left = f.advance.left := rfl

theorem Frame.left_start (e : Event) : (start e).left = sizeOf e.operations := rfl

/-- The present operation counts for what it holds and one more. -/
theorem Frame.left_eq {f : Frame} {op : Operation} (hawait : f.awaitingChild = false)
    (hop : f.operation? = some op) : f.left = 1 + sizeOf op + f.advance.left := by
  obtain ⟨hlt, rfl⟩ := List.getElem?_eq_some_iff.1 hop
  rw [left, resumed_of_not_awaiting hawait, List.drop_eq_getElem_cons hlt, List.cons.sizeOf_spec]
  rfl

namespace Tracker

section

variable {level : Event → ℕ} {f : Frame} {below : List Frame}

/-- What is left of all frames of one level. -/
noncomputable def work (level : Event → ℕ) (j : ℕ) : List Frame → ℕ
  | [] => 0
  | f :: below => (if level f.event = j then f.left else 0) + work level j below

theorem work_append (j : ℕ) (fs gs : List Frame) :
    work level j (fs ++ gs) = work level j fs + work level j gs := by
  induction fs with
  | nil => simp [work]
  | cons f fs ih => rw [List.cons_append, work, work, ih, Nat.add_assoc]

theorem work_settle_le (level : Event → ℕ) (j : ℕ) (fs : List Frame) :
    work level j (settle fs) ≤ work level j fs := by
  induction fs with
  | nil => exact le_rfl
  | cons f below ih =>
      cases hfin : f.resumed.isFinished with
      | true =>
          rw [settle_cons_of_finished hfin, work]
          omega
      | false =>
          rw [settle_cons_of_not_finished hfin, work, work, Frame.event_resumed, Frame.left_resumed]

theorem work_advance_le (hawait : f.awaitingChild = false) (hfin : f.isFinished = false) (j : ℕ) :
    work level j (f.advance :: below) ≤ work level j (f :: below) := by
  obtain ⟨op, hop⟩ := Frame.exists_operation hfin
  rw [work, work, Frame.event_advance, Frame.left_eq hawait hop]
  split <;> omega

theorem work_advance_lt (hawait : f.awaitingChild = false) (hfin : f.isFinished = false) :
    work level (level f.event) (f.advance :: below) < work level (level f.event) (f :: below) := by
  obtain ⟨op, hop⟩ := Frame.exists_operation hfin
  rw [work, work, Frame.event_advance, Frame.left_eq hawait hop, if_pos rfl, if_pos rfl]
  omega

/-- An inline call uses up more on the level of the caller than it brings. -/
theorem work_inlined_lt {op : Operation} {body : List Operation} {e : Event}
    (hawait : f.awaitingChild = false) (hop : f.operation? = some op)
    (hbody : op.inlineBody? = some body) (he : e.operations = body) :
    work level (level f.event) (.start e :: f.await :: below) <
      work level (level f.event) (f :: below) := by
  have hsize := Event.sizeOf_inlineBody hbody
  rw [work, work, work, Frame.event_await, Frame.left_await, Frame.left_eq hawait hop, if_pos rfl,
    if_pos rfl, Frame.left_start, Frame.event_start, he]
  split <;> omega

/-- On other levels a call adds what it brings. -/
theorem work_call_le {e : Event} {j : ℕ} (hawait : f.awaitingChild = false)
    (hfin : f.isFinished = false) (hj : level e ≠ j) :
    work level j (.start e :: f.await :: below) ≤ work level j (f :: below) := by
  have hle : work level j (f.advance :: below) ≤ work level j (f :: below) :=
    work_advance_le hawait hfin j
  rw [work, Frame.event_start, if_neg hj, Nat.zero_add]
  exact hle

/-! ## The potential -/

/-- What is left on the levels above the ceiling, the highest level first; levels up to the ceiling
count as unbounded. -/
noncomputable def potential (top : ℕ) (level : Event → ℕ) (ceiling : ℕ) (fs : List Frame) :
    Colex (Fin (top + 1) → WithTop ℕ) :=
  toColex fun j => if j.1 ≤ ceiling then ⊤ else (work level j fs : ℕ)

variable {top : ℕ}

theorem colex_lt {f g : Fin (top + 1) → WithTop ℕ} (i : Fin (top + 1)) (hlt : f i < g i)
    (hle : ∀ j, i < j → f j ≤ g j) : toColex f < toColex g := by
  refine lt_of_not_ge fun hge => ?_
  rcases hge.eq_or_lt with heq | ⟨k, heq, hk⟩
  · have heq : g = f := toColex.injective heq
    rw [heq] at hlt
    exact hlt.false
  · rcases lt_trichotomy i k with hik | rfl | hki
    · exact (hle k hik).not_gt hk
    · exact hlt.asymm hk
    · have heq : g i = f i := heq i hki
      rw [heq] at hlt
      exact hlt.false

variable {ceiling : ℕ} {fs fs' : List Frame}

theorem potential_le (h : ∀ j, ceiling < j → work level j fs' ≤ work level j fs) :
    potential top level ceiling fs' ≤ potential top level ceiling fs := by
  refine Pi.toColex_monotone fun j => ?_
  by_cases hj : j.1 ≤ ceiling
  · simp only [hj, if_true, le_refl]
  · simp only [hj, if_false]
    exact WithTop.coe_le_coe.2 (h j (Nat.lt_of_not_le hj))

end

section

variable {load : String → Reported Scene} {rank : Scene → ℕ} {top : ℕ} {f : Frame}
  {below fs fs' : List Frame}

theorem work_le_of_settle (hsettle : settle fs = f :: below) (level : Event → ℕ) (j : ℕ) :
    work level j (f :: below) ≤ work level j fs := by
  rw [← hsettle]
  exact work_settle_le level j fs

/-- A call does not raise the potential: what comes in up to the ceiling does not count, and what
comes in above it was held by the operation that calls. -/
theorem potential_le_of_call (h : Descends load rank top) {lib : Library} {op : Operation}
    {e : Event} (hawait : f.awaitingChild = false) (hfin : f.isFinished = false)
    (hop : f.operation? = some op) (hcall : f.event.CallsAt lib f.cursor op e) :
    potential top (Event.level load rank) (lib.ceiling load rank) (.start e :: f.await :: below) ≤
      potential top (Event.level load rank) (lib.ceiling load rank) (f :: below) := by
  have hlow : e.level load rank ≤ lib.ceiling load rank →
      potential top (Event.level load rank) (lib.ceiling load rank)
          (.start e :: f.await :: below) ≤
        potential top (Event.level load rank) (lib.ceiling load rank) (f :: below) := by
    intro hle
    refine potential_le fun j hj => work_call_le hawait hfin ?_
    exact (hle.trans_lt hj).ne
  cases hcall with
  | named hname hfind => exact hlow (h.level_le_ceiling hfind)
  | @inlined body hbody =>
      have hlevel : (f.event.inlined f.cursor body).level load rank ≤ f.event.level load rank :=
        h.level_le_of_holds ⟨hop, hbody⟩
      by_cases hceiling : f.event.level load rank ≤ lib.ceiling load rank
      · exact hlow (hlevel.trans hceiling)
      · -- the level of the caller falls, and no level above it changes
        have htop := Nat.lt_succ_of_le (h.level_le_top f.event)
        refine (colex_lt ⟨f.event.level load rank, htop⟩ ?_ ?_).le
        · simp only [hceiling, if_false]
          exact WithTop.coe_lt_coe.2 (work_inlined_lt hawait hop hbody rfl)
        · intro j hj
          have hj : f.event.level load rank < j.1 := hj
          have hj' : ¬j.1 ≤ lib.ceiling load rank := by omega
          simp only [hj', if_false]
          exact WithTop.coe_le_coe.2 (work_call_le hawait hfin (hlevel.trans_lt hj).ne)

/-- A turn that keeps the scene does not raise the potential. -/
theorem potential_le_of_moves (h : Descends load rank top) {lib : Library}
    (hsettle : settle fs = f :: below) (hmoves : Moves lib f below fs') :
    potential top (Event.level load rank) (lib.ceiling load rank) fs' ≤
      potential top (Event.level load rank) (lib.ceiling load rank) fs := by
  obtain ⟨hawait, hfin⟩ := settled hsettle
  have hsettled : potential top (Event.level load rank) (lib.ceiling load rank) (f :: below) ≤
      potential top (Event.level load rank) (lib.ceiling load rank) fs :=
    potential_le fun j _ => work_le_of_settle hsettle _ j
  refine le_trans ?_ hsettled
  cases hmoves with
  | advance => exact potential_le fun j _ => work_advance_le hawait hfin j
  | cancel =>
      refine potential_le fun j _ => ?_
      rw [work]
      exact Nat.le_add_left _ _
  | call hop hcall _ => exact potential_le_of_call h hawait hfin hop hcall

section

variable {c c' : Tracker × World} (h : Descends load rank top) (henters : Enters load f below c c')

include h henters

/-- The events of a scene that is entered are below the event that loads it. -/
theorem ceiling_lt_of_enters : c'.2.library.ceiling load rank < f.event.level load rank := by
  obtain ⟨path, door, lines, scene, origin, hop, hload, hlibrary⟩ := henters.scene
  have hle : c'.2.library.ceiling load rank ≤ rank scene := by
    rw [hlibrary]
    exact h.ceiling_ofList_le hload origin
  have hmem : .sceneLoad path door ∈ f.event.operations := List.mem_of_getElem? hop
  exact hle.trans_lt
    (h.loadsBelow_level f.event f.event .refl path door hmem _ lines scene hload)

/-- The start event of the scene brings nothing above the new ceiling. -/
theorem work_of_enters {j : ℕ} (hj : c'.2.library.ceiling load rank < j) :
    work (Event.level load rank) j c'.1.frames =
      work (Event.level load rank) j (f.advance :: below) := by
  rw [henters.frames, ← List.cons_append, work_append]
  cases hstart : c'.2.library.start? with
  | none => rfl
  | some e =>
      have hne : e.level load rank ≠ j := ((h.level_le_ceiling hstart).trans_lt hj).ne
      show _ + ((if e.level load rank = j then _ else 0) + 0) = _
      rw [if_neg hne, Nat.add_zero]

/-- A turn that enters a scene lowers the potential. -/
theorem potential_lt_of_enters (hsettle : settle c.1.frames = f :: below) :
    potential top (Event.level load rank) (c'.2.library.ceiling load rank) c'.1.frames <
      potential top (Event.level load rank) (c.2.library.ceiling load rank) c.1.frames := by
  obtain ⟨hawait, hfin⟩ := settled hsettle
  have hdown := ceiling_lt_of_enters h henters
  have hwork := fun j => work_of_enters (j := j) h henters
  have hsettled := work_le_of_settle hsettle (Event.level load rank)
  have hlevelTop : f.event.level load rank ≤ top := h.level_le_top f.event
  have hceilingTop : c.2.library.ceiling load rank ≤ top := h.ceiling_le_top c.2.library
  set k := f.event.level load rank with hk
  set ceiling := c.2.library.ceiling load rank
  set ceiling' := c'.2.library.ceiling load rank
  -- the level that falls is the old ceiling, or that of the event if it is above
  refine colex_lt ⟨max k ceiling, by omega⟩ ?_ ?_
  · have hnew : ¬max k ceiling ≤ ceiling' := by omega
    simp only [hnew, if_false]
    by_cases hkc : k ≤ ceiling
    · rw [if_pos (by omega)]
      exact WithTop.coe_lt_top _
    · have hmax : max k ceiling = k := by omega
      rw [if_neg (by omega), hmax, hwork k hdown]
      exact WithTop.coe_lt_coe.2 ((work_advance_lt hawait hfin).trans_le (hsettled k))
  · intro j hj
    have hj : max k ceiling < j.1 := hj
    rw [if_neg (by omega), if_neg (by omega), hwork j.1 (by omega)]
    exact WithTop.coe_le_coe.2 ((work_advance_le hawait hfin j.1).trans (hsettled j.1))

end

/-- If scenes load only scenes of lower rank, every tick ends. -/
theorem exists_runs_of_descends (h : Descends load rank top) (now : Nat) (c : Tracker × World) :
    ∃ r, Runs (World.stage load) now c.1 c.2 r := by
  -- outside, the potential: it falls when a scene is entered
  induction hp : potential top (Event.level load rank) (c.2.library.ceiling load rank) c.1.frames
    using WellFoundedLT.induction generalizing c with
  | _ p ihp =>
      obtain ⟨cast, base, htroupe⟩ := exists_troupe c.2.library c.1.frames
      have hplays : Plays (fun w : World => w.library = c.2.library)
          (reachable c.2.library c.1.frames) c := ⟨rfl, fun f hf => ⟨f, hf, .refl⟩⟩
      have hpotential := hp.le
      clear hp
      generalize c.2.library = lib at htroupe hplays
      generalize reachable lib c.1.frames = events at htroupe hplays
      -- inside, the weight: it falls while the scene stays
      induction hn : weight cast base c.1.frames using Nat.strong_induction_on generalizing c with
      | _ n ihn =>
          cases hturn : turn (World.stage load) now c.1 c.2 with
          | ended status t' w' => exact ⟨_, .ended hturn⟩
          | more t' w' =>
              have hgo : Goes (World.stage load) now c (t', w') := hturn
              obtain ⟨f, below, hsettle, hstep⟩ := exists_moves_or_enters hgo
              suffices hrest : ∃ r, Runs (World.stage load) now t' w' r from
                hrest.imp fun r hr => .more hturn hr
              rcases hstep with ⟨hmoves, hlibrary⟩ | henters
              · obtain ⟨hevents, hlt⟩ := weight_lt_of_moves htroupe hplays.event_mem hsettle
                  (hplays.state ▸ hmoves)
                refine ihn _ (hn ▸ hlt) (t', w') ?_ ⟨hlibrary.trans hplays.state, hevents⟩ rfl
                rw [hlibrary]
                exact (potential_le_of_moves h hsettle hmoves).trans hpotential
              · have hlt := potential_lt_of_enters h henters hsettle
                exact ihp _ (hlt.trans_le hpotential) (t', w') rfl

end

end Tracker

end Cutscene
