import Mathlib.Data.Finset.Card
import Mathlib.Data.Finset.Lattice.Fold
import Mathlib.Data.Set.Finite.Basic
import Mathlib.Tactic.GCongr
import Mathlib.Tactic.Ring
import Cutscene.Proofs.Stage.Hosts
import Cutscene.Proofs.Tracker.Calls

/-!
# Ticks end

Events may call each other in circles, and neither the depth of the stack nor the operations that
are left bound a tick: a call adds a frame with operations of its own. What stops it is that a
running event is not called again. So a call uses up one of the finitely many events that are not
running, and `weight` counts the operations that are left of a frame so many times that the frames
which they can still call weigh less than the operation itself.

Every turn that goes on and does not change the scene makes the stack lighter (`weight_lt_of_goes`).
Hence a tick ends or comes to a change of scene (`ends_or_changesScene`), and without a change of
scene in reach it ends (`tick_ends`).
-/

namespace Cutscene

/-- How many turns the frame itself can still take, twice and a bit. An operation that has called an
event counts for one less than before, and removing the frame counts too. -/
def Frame.remaining (f : Frame) : ℕ :=
  if f.awaitingChild then 2 * (f.event.size - (f.cursor + 1)) + 2
  else 2 * (f.event.size - f.cursor) + 1

namespace Tracker

/-! ## The weight of a stack -/

/-- The events of a cast that have no frame on the stack. -/
def offStage (cast : Finset Event.Id) (fs : List Frame) : Finset Event.Id :=
  cast \ (fs.map (·.event.id)).toFinset

/-- The operations that are left of all frames, each counted by how many events it could still have
on the stack above it. -/
def weight (cast : Finset Event.Id) (base : ℕ) : List Frame → ℕ
  | [] => 0
  | f :: below => weight cast base below + f.remaining * base ^ (offStage cast (f :: below)).card

variable {cast : Finset Event.Id} {base : ℕ} {f g : Frame} {below : List Frame}

theorem offStage_congr (h : f.event.id = g.event.id) :
    offStage cast (f :: below) = offStage cast (g :: below) := by
  simp only [offStage, List.map_cons, h]

/-- An event that comes on stage is one less off it. -/
theorem card_offStage_start_lt {e : Event} {fs : List Frame} (hcast : e.id ∈ cast)
    (hfree : ∀ f ∈ fs, f.event.id ≠ e.id) :
    (offStage cast (.start e :: fs)).card < (offStage cast fs).card := by
  refine Finset.card_lt_card (Finset.ssubset_iff_of_subset ?_ |>.2 ⟨e.id, ?_, ?_⟩)
  · refine Finset.sdiff_subset_sdiff subset_rfl ?_
    intro i hi
    simp only [List.map_cons, List.toFinset_cons, Finset.mem_insert]
    exact Or.inr hi
  · simp only [offStage, Finset.mem_sdiff, List.mem_toFinset, List.mem_map, not_exists, not_and]
    exact ⟨hcast, hfree⟩
  · simp [offStage, Frame.start]

theorem weight_cons_lt (hid : f.event.id = g.event.id) (hlt : f.remaining < g.remaining)
    (hbase : 0 < base) : weight cast base (f :: below) < weight cast base (g :: below) := by
  rw [weight, weight, offStage_congr hid]
  have hpow : 0 < base ^ (offStage cast (g :: below)).card := Nat.pow_pos hbase
  gcongr

theorem remaining_pos (f : Frame) : 0 < f.remaining := by
  unfold Frame.remaining
  split <;> omega

theorem remaining_of_not_awaiting (h : f.awaitingChild = false) :
    f.remaining = 2 * (f.event.size - f.cursor) + 1 := by
  simp [Frame.remaining, h]

theorem remaining_advance (f : Frame) :
    f.advance.remaining = 2 * (f.event.size - (f.cursor + 1)) + 1 := rfl

theorem remaining_await (f : Frame) :
    f.await.remaining = 2 * (f.event.size - (f.cursor + 1)) + 2 := rfl

theorem remaining_start (e : Event) : (Frame.start e).remaining = 2 * e.size + 1 := rfl

theorem remaining_resumed_le (f : Frame) : f.resumed.remaining ≤ f.remaining := by
  cases h : f.awaitingChild with
  | false => rw [Frame.resumed_of_not_awaiting h]
  | true =>
      have hres : f.resumed = f.advance := by simp [Frame.resumed, h]
      rw [hres, remaining_advance]
      simp only [Frame.remaining, h, if_true]
      omega

/-- Settling makes no stack heavier. -/
theorem weight_settle_le (cast : Finset Event.Id) (base : ℕ) (fs : List Frame) :
    weight cast base (settle fs) ≤ weight cast base fs := by
  induction fs with
  | nil => rfl
  | cons f below ih =>
      by_cases hfin : f.resumed.isFinished = true
      · rw [settle_cons_of_finished hfin, weight]
        omega
      · rw [Bool.not_eq_true] at hfin
        rw [settle_cons_of_not_finished hfin, weight, weight,
          offStage_congr (show f.resumed.event.id = f.event.id by rw [Frame.event_resumed])]
        have hle := remaining_resumed_le f
        gcongr

theorem weight_lt_cons (hbase : 0 < base) :
    weight cast base below < weight cast base (f :: below) := by
  rw [weight]
  have hpow : 0 < base ^ (offStage cast (f :: below)).card := Nat.pow_pos hbase
  have hpos := Nat.mul_pos (remaining_pos f) hpow
  omega

/-- The next operation weighs less than the present one. -/
theorem weight_advance_lt (hawait : f.awaitingChild = false) (hfin : f.isFinished = false)
    (hbase : 0 < base) : weight cast base (f.advance :: below) < weight cast base (f :: below) := by
  refine weight_cons_lt (g := f) rfl ?_ hbase
  rw [remaining_advance, remaining_of_not_awaiting hawait]
  have hlt := Frame.isFinished_eq_false_iff.1 hfin
  omega

/-- A called event and the frame that waits for it weigh less than the operation that calls. -/
theorem weight_call_lt {e : Event} (hawait : f.awaitingChild = false) (hfin : f.isFinished = false)
    (hcast : e.id ∈ cast) (hfree : ∀ g ∈ f :: below, g.event.id ≠ e.id)
    (hbase : 2 * e.size + 2 ≤ base) :
    weight cast base (.start e :: f.await :: below) < weight cast base (f :: below) := by
  have hlt := Frame.isFinished_eq_false_iff.1 hfin
  have hrem : f.remaining = f.await.remaining + 1 := by
    rw [remaining_of_not_awaiting hawait, remaining_await]
    omega
  have hwait : offStage cast (f.await :: below) = offStage cast (f :: below) :=
    offStage_congr rfl
  have hcard : (offStage cast (.start e :: f.await :: below)).card + 1 ≤
      (offStage cast (f :: below)).card := by
    rw [← hwait]
    exact card_offStage_start_lt hcast fun g hg => by
      rcases List.mem_cons.1 hg with rfl | hg
      · exact hfree f List.mem_cons_self
      · exact hfree g (List.mem_cons_of_mem f hg)
  -- the new frame counts less than one operation of the frame that calls it
  have hnew : (Frame.start e).remaining *
      base ^ (offStage cast (.start e :: f.await :: below)).card <
      base ^ (offStage cast (f :: below)).card := by
    calc (Frame.start e).remaining * base ^ (offStage cast (.start e :: f.await :: below)).card
        < base * base ^ (offStage cast (.start e :: f.await :: below)).card := by
          rw [remaining_start]
          refine Nat.mul_lt_mul_of_pos_right (by omega) (Nat.pow_pos (by omega))
      _ = base ^ ((offStage cast (.start e :: f.await :: below)).card + 1) := by ring
      _ ≤ base ^ (offStage cast (f :: below)).card := Nat.pow_le_pow_right (by omega) hcard
  rw [weight, weight, weight, hwait, hrem, Nat.add_one_mul]
  omega

/-! ## Turns make the stack lighter -/

/-- Events that call only each other, with identities from a cast and of bounded size. -/
structure Troupe (lib : Library) (events : Set Event) (cast : Finset Event.Id) (base : ℕ) :
    Prop where
  calls : ∀ e ∈ events, ∀ e', e.Calls lib e' → e' ∈ events
  id_mem : ∀ e ∈ events, e.id ∈ cast
  size_le : ∀ e ∈ events, 2 * e.size + 2 ≤ base

/-- The events that can be reached from the frames of a stack. -/
def reachable (lib : Library) (fs : List Frame) : Set Event :=
  {e | ∃ f ∈ fs, f.event.Reaches lib e}

/-- The events that can be reached from a stack are finitely many, so there is a cast for them. -/
theorem exists_troupe (lib : Library) (fs : List Frame) :
    ∃ cast base, Troupe lib (reachable lib fs) cast base := by
  have hroots : {e | ∃ f ∈ fs, f.event = e}.Finite :=
    (List.finite_toSet (fs.map (·.event))).subset fun e ⟨f, hf, he⟩ =>
      List.mem_map.2 ⟨f, hf, he⟩
  have hfin : (reachable lib fs).Finite := by
    refine (Event.finite_reaches lib hroots).subset ?_
    rintro e ⟨f, hf, hreach⟩
    exact ⟨f.event, ⟨f, hf, rfl⟩, hreach⟩
  refine ⟨hfin.toFinset.image (·.id), 2 * hfin.toFinset.sup Event.size + 2, ?_, ?_, ?_⟩
  · rintro e ⟨f, hf, hreach⟩ e' hcall
    exact ⟨f, hf, hreach.tail hcall⟩
  · intro e he
    exact Finset.mem_image_of_mem _ (hfin.mem_toFinset.2 he)
  · intro e he
    have hle : e.size ≤ hfin.toFinset.sup Event.size := Finset.le_sup (hfin.mem_toFinset.2 he)
    omega

/-- Whether the next turn changes the scene. -/
def changesScene (t : Tracker) : Bool :=
  match settle t.frames with
  | [] => false
  | f :: _ => f.operation?.any Operation.loadsScene

theorem exists_sceneLoad {t : Tracker} (ht : t.changesScene = true) :
    ∃ f below path door, settle t.frames = f :: below ∧
      f.operation? = some (.sceneLoad path door) := by
  unfold changesScene at ht
  split at ht
  · cases ht
  · rename_i f below hsettle
    obtain ⟨op, hop, hload⟩ := (Option.any_eq_true _ _).1 ht
    cases op with
    | sceneLoad path door => exact ⟨f, below, path, door, hsettle, hop⟩
    | _ => cases hload

theorem loadsScene_of_settle {t : Tracker} {op : Operation} (ht : t.changesScene = false)
    (hsettle : settle t.frames = f :: below) (hop : f.operation? = some op) :
    op.loadsScene = false := by
  simpa only [changesScene, hsettle, hop, Option.any_some] using ht

section

variable {σ : Type} {stage : Stage σ} {now : Nat} {lib : Library} {P : σ → Prop}
  {events : Set Event}

/-- What a turn that keeps the scene makes of a settled stack: the frame on top is done with its
operation, or it is removed, or an event is called that is not running. -/
inductive Moves (lib : Library) (f : Frame) (below : List Frame) : List Frame → Prop
  | advance : Moves lib f below (f.advance :: below)
  | cancel : Moves lib f below below
  | call {op : Operation} {e : Event} (hop : f.operation? = some op)
      (hcall : f.event.CallsAt lib f.cursor op e) (hfree : ∀ g ∈ f :: below, g.event.id ≠ e.id) :
      Moves lib f below (.start e :: f.await :: below)

/-- An execution that queues nothing and lets the tick go on makes one of these moves. -/
theorem moves_of_follow (h : stage.Serves lib P) {op : Operation} {r : Effect σ} {t' : Tracker}
    {s' : σ} (hop : f.operation? = some op) (hqueue : queuedBelow r below = below)
    (hstate : P r.state) (hcalls : ∀ e, r.flow = .call e → f.event.CallsAt lib f.cursor op e)
    (hgo : follow stage f below r = .more t' s') : Moves lib f below t'.frames ∧ P s' := by
  cases hflow : r.flow with
  | next =>
      rw [follow_next hflow, hqueue] at hgo
      obtain ⟨rfl, rfl⟩ := Turn.more.inj hgo
      exact ⟨.advance, hstate⟩
  | suspend p =>
      rw [follow_suspend hflow] at hgo
      cases hgo
  | call e =>
      cases hruns : isRunning ⟨f.await :: queuedBelow r below, r.voices⟩ e with
      | true =>
          rw [follow_refused hflow hruns, hqueue] at hgo
          obtain ⟨rfl, rfl⟩ := Turn.more.inj hgo
          exact ⟨.advance, h.say _ _ hstate⟩
      | false =>
          rw [follow_call hflow hruns, hqueue] at hgo
          obtain ⟨rfl, rfl⟩ := Turn.more.inj hgo
          rw [hqueue] at hruns
          obtain ⟨hself, hfree⟩ := List.forall_mem_cons.1 (isRunning_eq_false_iff.1 hruns)
          exact ⟨.call hop (hcalls e hflow) (List.forall_mem_cons.2 ⟨hself, hfree⟩),
            h.say _ _ hstate⟩
  | cancel =>
      rw [follow_cancel hflow, hqueue] at hgo
      obtain ⟨rfl, rfl⟩ := Turn.more.inj hgo
      exact ⟨.cancel, h.say _ _ hstate⟩

/-- Every turn that goes on and keeps the scene makes one of these moves. -/
theorem exists_moves (h : stage.Serves lib P) {c c' : Tracker × σ} (hs : P c.2)
    (hscene : c.1.changesScene = false) (hgo : Goes stage now c c') :
    ∃ f below, settle c.1.frames = f :: below ∧ Moves lib f below c'.1.frames ∧ P c'.2 := by
  obtain ⟨⟨fs, voices⟩, s⟩ := c
  rw [Goes] at hgo
  cases hsettle : settle fs with
  | nil =>
      rw [turn_idle hsettle] at hgo
      cases hgo
  | cons f below =>
      obtain ⟨op, hop, hturn⟩ := turn_active hsettle voices s
      rw [hturn] at hgo
      have hload : op.loadsScene = false := loadsScene_of_settle hscene hsettle hop
      exact ⟨f, below, rfl, moves_of_follow h hop (queuedBelow_perform hload below)
        (h.perform hload hs) (fun e he => h.calls_of_perform hs he) hgo⟩

/-- What holds of a tick while the scene stays: the stage keeps the property and only events of the
troupe have frames. -/
structure Plays (P : σ → Prop) (events : Set Event) (c : Tracker × σ) : Prop where
  state : P c.2
  event_mem : ∀ f ∈ c.1.frames, f.event ∈ events

theorem event_mem_of_settle {fs : List Frame} (hfs : ∀ g ∈ fs, g.event ∈ events)
    (hsettle : settle fs = f :: below) : ∀ g ∈ f :: below, g.event ∈ events := by
  obtain ⟨above, g, rfl, rfl, -, -⟩ := exists_of_settle_eq_cons hsettle
  intro x hx
  rcases List.mem_cons.1 hx with rfl | hx
  · rw [Frame.event_resumed]
    exact hfs g (List.mem_append_right above List.mem_cons_self)
  · exact hfs x (List.mem_append_right above (List.mem_cons_of_mem g hx))

/-- Every move keeps to the troupe and makes the stack lighter. -/
theorem weight_lt_of_moves (htroupe : Troupe lib events cast base) {fs fs' : List Frame}
    (hfs : ∀ g ∈ fs, g.event ∈ events) (hsettle : settle fs = f :: below)
    (hmoves : Moves lib f below fs') :
    (∀ g ∈ fs', g.event ∈ events) ∧ weight cast base fs' < weight cast base fs := by
  have hmem := event_mem_of_settle hfs hsettle
  obtain ⟨hevent, hbelow⟩ := List.forall_mem_cons.1 hmem
  obtain ⟨hawait, hfin⟩ := settled hsettle
  have hle : weight cast base (f :: below) ≤ weight cast base fs := by
    rw [← hsettle]
    exact weight_settle_le cast base fs
  have hbase : 0 < base := by
    have hsize := htroupe.size_le _ hevent
    omega
  cases hmoves with
  | advance =>
      exact ⟨List.forall_mem_cons.2 ⟨hevent, hbelow⟩,
        (weight_advance_lt hawait hfin hbase).trans_le hle⟩
  | cancel => exact ⟨hbelow, (weight_lt_cons hbase).trans_le hle⟩
  | @call op e hop hcall hfree =>
      have he : e ∈ events := htroupe.calls _ hevent e ⟨_, op, hop, hcall⟩
      refine ⟨List.forall_mem_cons.2 ⟨he, List.forall_mem_cons.2 ⟨hevent, hbelow⟩⟩, ?_⟩
      exact (weight_call_lt hawait hfin (htroupe.id_mem e he) hfree
        (htroupe.size_le e he)).trans_le hle

/-- A turn that goes on and does not change the scene keeps the troupe on the stage and makes the
stack lighter. -/
theorem weight_lt_of_goes (h : stage.Serves lib P) (htroupe : Troupe lib events cast base)
    {c c' : Tracker × σ} (hc : Plays P events c) (hscene : c.1.changesScene = false)
    (hgo : Goes stage now c c') :
    Plays P events c' ∧ weight cast base c'.1.frames < weight cast base c.1.frames := by
  obtain ⟨f, below, hsettle, hmoves, hstate⟩ := exists_moves h hc.state hscene hgo
  obtain ⟨hevents, hlt⟩ := weight_lt_of_moves htroupe hc.event_mem hsettle hmoves
  exact ⟨⟨hstate, hevents⟩, hlt⟩

/-- A tick ends unless it comes to a change of scene. -/
theorem ends_or_changesScene (h : stage.Serves lib P) (htroupe : Troupe lib events cast base)
    (now : Nat) {c : Tracker × σ} (hc : Plays P events c) :
    (∃ r, Runs stage now c.1 c.2 r) ∨
      ∃ c', Relation.ReflTransGen (Goes stage now) c c' ∧ Plays P events c' ∧
        c'.1.changesScene = true := by
  induction hn : weight cast base c.1.frames using Nat.strong_induction_on generalizing c with
  | _ n ih =>
      cases hscene : c.1.changesScene with
      | true => exact Or.inr ⟨c, .refl, hc, hscene⟩
      | false =>
          cases hturn : turn stage now c.1 c.2 with
          | ended status t' s' => exact Or.inl ⟨_, .ended hturn⟩
          | more t' s' =>
              have hgo : Goes stage now c (t', s') := hturn
              obtain ⟨hc', hlt⟩ := weight_lt_of_goes h htroupe hc hscene hgo
              rcases ih _ (hn ▸ hlt) hc' rfl with ⟨r, hr⟩ | ⟨c'', hpath, hplays, hchange⟩
              · exact Or.inl ⟨r, .more hturn hr⟩
              · exact Or.inr ⟨c'', .head hgo hpath, hplays, hchange⟩

/-- Without a change of scene in reach, every tick ends, whatever the events call. -/
theorem tick_ends (h : stage.Serves lib P) (now : Nat) {t : Tracker} {s : σ} (hs : P s)
    (hstays : ∀ e ∈ reachable lib t.frames, ∀ op ∈ e.operations, op.loadsScene = false) :
    ∃ r, Runs stage now t s r ∧ tick stage now t s = r := by
  obtain ⟨cast, base, htroupe⟩ := exists_troupe lib t.frames
  have hc : Plays P (reachable lib t.frames) (t, s) :=
    ⟨hs, fun f hf => ⟨f, hf, .refl⟩⟩
  rcases ends_or_changesScene h htroupe now hc with ⟨r, hr⟩ | ⟨c', -, hc', hchange⟩
  · exact ⟨r, hr, hr.tick_eq⟩
  · -- the operation that changes the scene would be in reach
    obtain ⟨f, below, path, door, hsettle, hop⟩ := exists_sceneLoad hchange
    have hmem := event_mem_of_settle hc'.event_mem hsettle f List.mem_cons_self
    have hload := hstays _ hmem _ (List.mem_of_getElem? hop)
    exact absurd hload (by simp [Operation.loadsScene])

end

/-- A library of two events that call each other while a flag is set. -/
def circle : Library :=
  (Library.empty.insert 0 "ping" [.flagIf "on" (some "pong") none]).insert 1 "pong"
    [.flagIf "on" (some "ping") none]

theorem passesAll_circle {p : Operation → Bool}
    (hp : ∀ flag target, p (.flagIf flag target none) = true) {name : String} {e : Event}
    (h : circle.find? name = some e) : Operation.passesAll p e.operations = true := by
  have hsingle : ∀ flag target, Operation.passesAll p [.flagIf flag target none] = true := by
    intro flag target
    simp [Operation.passesAll, Operation.passes, hp]
  rcases Library.eq_or_find?_of_insert h with rfl | h
  · exact hsingle _ _
  · rcases Library.eq_or_find?_of_insert h with rfl | h
    · exact hsingle _ _
    · simp at h

/-- The two events, one of them twice on a stack. -/
def circling : Tracker :=
  let ping := Event.make 0 (some "ping") [.flagIf "on" (some "pong") none]
  let pong := Event.make 1 (some "pong") [.flagIf "on" (some "ping") none]
  ⟨[.start ping, .start pong, .start ping], .silent⟩

theorem tick_ends_circling :
    ∃ r, Runs Rehearsal.stage 0 circling (.opening circle (.ofList ["on"])) r ∧
      tick Rehearsal.stage 0 circling (.opening circle (.ofList ["on"])) = r := by
  refine tick_ends (Rehearsal.stage_serves circle) 0 rfl ?_
  rintro e ⟨f, hf, hreach⟩ op hop
  have hroot : Operation.passesAll (!·.loadsScene) f.event.operations = true := by
    simp only [circling, List.mem_cons, List.not_mem_nil, or_false] at hf
    rcases hf with rfl | rfl | rfl <;> rfl
  have hpass := Event.passesAll_of_reaches
    (fun _ _ hfind => passesAll_circle (fun _ _ => rfl) hfind) hroot hreach
  simpa using Operation.of_passes (Operation.passesAll_iff.1 hpass op hop)

end Tracker

end Cutscene
