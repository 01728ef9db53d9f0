import Mathlib.Data.Prod.Lex
import Cutscene.Proofs.Tracker.Ending
import Cutscene.Proofs.Tracker.Patience

/-!
# Events come to an end

A tick that does not change the scene ends, but events can go on for many ticks. If none of the
operations in reach waits for the player, then ticks at a steady pace run all of them to their end
(`drains`), whatever the texts, the waits and the fades, and however deep the calls.

What becomes less from one tick to the next is the weight of the stack or else the patience of the
operation on top (`burden`). Only the operation on top takes its time: what a frame below it keeps
is neither looked at nor changed until the frames above have ended, and by then the stack is
lighter.
-/

namespace Cutscene

namespace Tracker

/-- A position of an event that the frames of a stack can come to: it is ahead of one of them, or
the event is called from such a position. -/
inductive InReach (lib : Library) (fs : List Frame) : Event → ℕ → Prop
  | ahead {f : Frame} {i : ℕ} (hf : f ∈ fs) (hi : f.resumed.cursor ≤ i) : InReach lib fs f.event i
  | called {e e' : Event} {i j : ℕ} {op : Operation} (he : InReach lib fs e i)
      (hop : e.operations[i]? = some op) (hcall : e.CallsAt lib i op e') : InReach lib fs e' j

/-- No operation in reach changes the scene or waits for the player. -/
def Unattended (lib : Library) (fs : List Frame) : Prop :=
  ∀ e i op, InReach lib fs e i → e.operations[i]? = some op →
    op.loadsScene = false ∧ op.asksPlayer = false

/-- Operations pass the check that neither change the scene nor wait for the player. -/
def isUnattended (op : Operation) : Bool := !op.loadsScene && !op.asksPlayer

/-- It is enough to look at the events of the library and at what is ahead of the frames. -/
theorem unattended_of_passes {lib : Library} {fs : List Frame}
    (hlib : ∀ name e, lib.find? name = some e →
      Operation.passesAll isUnattended e.operations = true)
    (hfs : ∀ f ∈ fs, Operation.passesAll isUnattended
      (f.event.operations.drop f.resumed.cursor) = true) : Unattended lib fs := by
  have hpasses : ∀ e i, InReach lib fs e i →
      ∀ op, e.operations[i]? = some op → op.passes isUnattended = true := by
    intro e i hreach
    induction hreach with
    | @ahead f i hf hi =>
        intro op hop
        have hdrop :
            (f.event.operations.drop f.resumed.cursor)[i - f.resumed.cursor]? = some op := by
          rw [List.getElem?_drop, Nat.add_sub_of_le hi]
          exact hop
        exact Operation.passesAll_iff.1 (hfs f hf) op (List.mem_of_getElem? hdrop)
    | @called e e' i j op he hop hcall ih =>
        intro op' hop'
        refine Operation.passesAll_iff.1 ?_ op' (List.mem_of_getElem? hop')
        cases hcall with
        | named hname hfind => exact hlib _ _ hfind
        | inlined hbody => exact Operation.passesAll_inlineBody (ih op hop) hbody
  intro e i op hreach hop
  simpa [isUnattended] using Operation.of_passes (hpasses e i hreach op hop)

end Tracker

namespace Frame

variable {σ : Type} {stage : Stage σ} {lib : Library} {events : Set Event} {roots : List Frame}
  {f : Frame}

/-- The frame keeps progress that its operation can have. -/
def Attained (stage : Stage σ) (f : Frame) : Prop :=
  ∀ op, f.operation? = some op → op.Attains stage f.progress

theorem attained_of_fresh (h : f.progress = .fresh) : f.Attained stage := by
  intro op _
  rw [h]
  exact .fresh

/-- A frame of a stack that ticks have come to from another stack: its event belongs to the troupe,
it keeps progress that its operation can have, and what is ahead of it was in reach before. -/
structure Fits (stage : Stage σ) (lib : Library) (events : Set Event) (roots : List Frame)
    (f : Frame) : Prop where
  event_mem : f.event ∈ events
  attained : f.Attained stage
  ahead : ∀ i, f.resumed.cursor ≤ i → Tracker.InReach lib roots f.event i

theorem fits_start {e : Event} (he : e ∈ events) (hreach : ∀ i, Tracker.InReach lib roots e i) :
    (start e).Fits stage lib events roots :=
  ⟨he, attained_of_fresh rfl, fun i _ => hreach i⟩

theorem resumed_cursor_le (f : Frame) : f.resumed.cursor ≤ f.cursor + 1 := by
  cases hawait : f.awaitingChild with
  | true =>
      rw [Frame.resumed, if_pos hawait]
      exact le_rfl
  | false =>
      rw [resumed_of_not_awaiting hawait]
      exact Nat.le_succ _

namespace Fits

theorem advance (h : f.Fits stage lib events roots) : f.advance.Fits stage lib events roots :=
  ⟨h.event_mem, attained_of_fresh rfl, fun i hi => h.ahead i (f.resumed_cursor_le.trans hi)⟩

theorem await (h : f.Fits stage lib events roots) : f.await.Fits stage lib events roots :=
  ⟨h.event_mem, attained_of_fresh rfl, fun i hi => h.ahead i (f.resumed_cursor_le.trans hi)⟩

theorem resumed (h : f.Fits stage lib events roots) : f.resumed.Fits stage lib events roots := by
  cases hawait : f.awaitingChild with
  | true =>
      rw [Frame.resumed, if_pos hawait]
      exact h.advance
  | false =>
      rw [resumed_of_not_awaiting hawait]
      exact h

theorem inReach (h : f.Fits stage lib events roots) (hawait : f.awaitingChild = false) :
    Tracker.InReach lib roots f.event f.cursor := by
  refine h.ahead f.cursor ?_
  rw [resumed_of_not_awaiting hawait]

/-- What an execution leaves when it suspends fits again. -/
theorem suspend (h : f.Fits stage lib events roots) {op : Operation}
    (hop : f.operation? = some op) {now : ℕ} {voices : Voices} {s : σ} {p : Progress}
    (hflow : (f.perform stage now op voices s).flow = .suspend p) :
    (f.suspend p).Fits stage lib events roots where
  event_mem := h.event_mem
  attained := by
    intro op' hop'
    obtain rfl : op = op' := Option.some.inj (hop.symm.trans hop')
    exact .suspended (h.attained op hop) hflow
  ahead := by
    -- neither where the frame is nor whether it waits has changed
    have hcursor : (f.suspend p).resumed.cursor = f.resumed.cursor := by
      cases hawait : f.awaitingChild <;> simp [Frame.resumed, Frame.suspend, Frame.advance, hawait]
    rw [hcursor]
    exact h.ahead

end Fits

end Frame

namespace Tracker

section

variable {σ : Type} {stage : Stage σ} {now step : ℕ} {lib : Library} {P : σ → Prop}
  {events : Set Event} {cast : Finset Event.Id} {base : ℕ} {f : Frame} {fs below roots : List Frame}

/-! ## What the ticks keep -/

theorem fits_of_settle (hfs : ∀ g ∈ fs, g.Fits stage lib events roots)
    (hsettle : settle fs = f :: below) : ∀ g ∈ f :: below, g.Fits stage lib events roots := by
  obtain ⟨above, g, rfl, rfl, -, -⟩ := exists_of_settle_eq_cons hsettle
  refine List.forall_mem_cons.2 ⟨(hfs g ?_).resumed, fun x hx => hfs x ?_⟩
  · exact List.mem_append_right above List.mem_cons_self
  · exact List.mem_append_right above (List.mem_cons_of_mem g hx)

theorem fits_of_moves (htroupe : Troupe lib events cast base)
    (h : ∀ g ∈ f :: below, g.Fits stage lib events roots) (hawait : f.awaitingChild = false)
    (hmoves : Moves lib f below fs) : ∀ g ∈ fs, g.Fits stage lib events roots := by
  obtain ⟨hf, hbelow⟩ := List.forall_mem_cons.1 h
  cases hmoves with
  | advance => exact List.forall_mem_cons.2 ⟨hf.advance, hbelow⟩
  | cancel => exact hbelow
  | call hop hcall =>
      have he := htroupe.calls _ hf.event_mem _ ⟨_, _, hop, hcall⟩
      have hreach := fun i => InReach.called (j := i) (hf.inReach hawait) hop hcall
      exact List.forall_mem_cons.2
        ⟨Frame.fits_start he hreach, List.forall_mem_cons.2 ⟨hf.await, hbelow⟩⟩

/-- What holds from tick to tick: the stage keeps the property and the frames fit. -/
structure Lasts (stage : Stage σ) (lib : Library) (P : σ → Prop) (events : Set Event)
    (roots : List Frame) (c : Tracker × σ) : Prop where
  state : P c.2
  fits : ∀ f ∈ c.1.frames, f.Fits stage lib events roots

theorem Lasts.plays {c : Tracker × σ} (h : Lasts stage lib P events roots c) : Plays P events c :=
  ⟨h.state, fun f hf => (h.fits f hf).event_mem⟩

/-- The operation that is executed next neither changes the scene nor waits for the player. -/
theorem Unattended.next (hroots : Unattended lib roots)
    (hfs : ∀ g ∈ fs, g.Fits stage lib events roots) (hsettle : settle fs = f :: below)
    {op : Operation} (hop : f.operation? = some op) :
    op.loadsScene = false ∧ op.asksPlayer = false :=
  hroots f.event f.cursor op
    ((fits_of_settle hfs hsettle f List.mem_cons_self).inReach (settled hsettle).1) hop

theorem Lasts.changesScene_eq_false (hroots : Unattended lib roots) {c : Tracker × σ}
    (hc : Lasts stage lib P events roots c) : c.1.changesScene = false := by
  cases hchange : c.1.changesScene with
  | false => rfl
  | true =>
      obtain ⟨f, below, path, door, hsettle, hop⟩ := exists_sceneLoad hchange
      cases (hroots.next hc.fits hsettle hop).1

/-- A turn that goes on keeps all this and makes the stack lighter. -/
theorem Lasts.goes (h : stage.Serves lib P) (htroupe : Troupe lib events cast base)
    (hroots : Unattended lib roots) {c c' : Tracker × σ} (hc : Lasts stage lib P events roots c)
    (hgo : Goes stage now c c') : Lasts stage lib P events roots c' ∧
      weight cast base c'.1.frames < weight cast base c.1.frames := by
  have hscene := hc.changesScene_eq_false hroots
  obtain ⟨f, below, hsettle, hmoves, hstate⟩ := exists_moves h hc.state hscene hgo
  obtain ⟨-, hlt⟩ := weight_lt_of_moves htroupe hc.plays.event_mem hsettle hmoves
  have hfits := fits_of_settle hc.fits hsettle
  exact ⟨⟨hstate, fits_of_moves htroupe hfits (settled hsettle).1 hmoves⟩, hlt⟩

/-! ## What becomes less -/

/-- How long the operation that is executed next can still take by itself. -/
def patience (now : ℕ) (fs : List Frame) : ℕ :=
  match settle fs with
  | [] => 0
  | f :: _ => (f.operation?.map (·.patience now f.justEntered f.progress)).getD 0

theorem patience_of_settle {op : Operation} (hsettle : settle fs = f :: below)
    (hop : f.operation? = some op) :
    patience now fs = op.patience now f.justEntered f.progress := by
  simp only [patience, hsettle, hop, Option.map_some, Option.getD_some]

/-- What is left to do: the weight of the stack first, then the patience of its top. -/
def burden (cast : Finset Event.Id) (base now : ℕ) (fs : List Frame) : ℕ ×ₗ ℕ :=
  toLex (weight cast base fs, patience now fs)

theorem weight_suspend (p : Progress) :
    weight cast base (f.suspend p :: below) = weight cast base (f :: below) := rfl

/-- When the operation on top suspends, less is left to do at the next tick. -/
theorem burden_suspend_lt (hsettle : settle fs = f :: below) {op : Operation}
    (hop : f.operation? = some op) (hasks : op.asksPlayer = false)
    (hattains : op.Attains stage f.progress) (hstep : 0 < step) {voices : Voices} {s : σ}
    {p : Progress} (hflow : (f.perform stage now op voices s).flow = .suspend p) :
    burden cast base (now + step) (f.suspend p :: below) < burden cast base now fs := by
  have hop' : (f.suspend p).operation? = some op := hop
  have hweight : weight cast base (f.suspend p :: below) ≤ weight cast base fs := by
    rw [weight_suspend, ← hsettle]
    exact weight_settle_le cast base fs
  have hpatience : patience (now + step) (f.suspend p :: below) < patience now fs := by
    rw [patience_of_settle hsettle hop, patience_of_settle (settle_suspend hsettle p) hop']
    exact Operation.patience_lt hasks hattains hstep hflow
  exact Prod.Lex.toLex_lt_toLex'.2 ⟨hweight, fun _ => hpatience⟩

/-- The turn that suspends a tick keeps what holds from tick to tick, and leaves less to do at the
next tick. -/
theorem Lasts.suspended (h : stage.Serves lib P) (hroots : Unattended lib roots) (hstep : 0 < step)
    {c : Tracker × σ} (hc : Lasts stage lib P events roots c) {t : Tracker} {s : σ}
    (hturn : turn stage now c.1 c.2 = .ended .suspended t s) :
    Lasts stage lib P events roots (t, s) ∧
      burden cast base (now + step) t.frames < burden cast base now c.1.frames := by
  obtain ⟨⟨fs, voices⟩, s₀⟩ := c
  cases hsettle : settle fs with
  | nil =>
      rw [turn_idle hsettle] at hturn
      cases hturn
  | cons f below =>
      obtain ⟨op, hop, hfollow⟩ := turn_active hsettle voices s₀
      obtain ⟨p, hflow, hframes, rfl⟩ := exists_suspend_of_follow (hfollow.symm.trans hturn)
      obtain ⟨hfits, hbelow⟩ := List.forall_mem_cons.1 (fits_of_settle hc.fits hsettle)
      obtain ⟨hload, hasks⟩ := hroots.next hc.fits hsettle hop
      rw [queuedBelow_perform hload] at hframes
      refine ⟨⟨h.perform hload hc.state, ?_⟩, ?_⟩
      · rw [hframes]
        exact List.forall_mem_cons.2 ⟨hfits.suspend hop hflow, hbelow⟩
      · rw [hframes]
        exact burden_suspend_lt hsettle hop hasks (hfits.attained op hop) hstep hflow

/-- A tick keeps what holds from tick to tick, and either runs all events to their end or leaves
less to do at the next tick. -/
theorem Lasts.runs (h : stage.Serves lib P) (htroupe : Troupe lib events cast base)
    (hroots : Unattended lib roots) (hstep : 0 < step) {t : Tracker} {s : σ}
    {r : TickStatus × Tracker × σ} (hr : Runs stage now t s r)
    (hc : Lasts stage lib P events roots (t, s)) (hsuspended : r.1 = .suspended) :
    Lasts stage lib P events roots r.2 ∧
      burden cast base (now + step) r.2.1.frames < burden cast base now t.frames := by
  induction hr with
  | ended hturn =>
      cases hsuspended
      exact hc.suspended h hroots hstep hturn
  | @more t t' s s' r hturn _ ih =>
      have hgo : Goes stage now (t, s) (t', s') := hturn
      obtain ⟨hc', hlt⟩ := hc.goes h htroupe hroots hgo
      obtain ⟨hlasts, hburden⟩ := ih hc' hsuspended
      exact ⟨hlasts, hburden.trans (Prod.Lex.toLex_lt_toLex.2 (.inl hlt))⟩

/-- A tick ends. -/
theorem Lasts.exists_runs (h : stage.Serves lib P) (htroupe : Troupe lib events cast base)
    (hroots : Unattended lib roots) (now : ℕ) {t : Tracker} {s : σ}
    (hc : Lasts stage lib P events roots (t, s)) : ∃ r, Runs stage now t s r := by
  induction hn : weight cast base t.frames using Nat.strong_induction_on generalizing t s with
  | _ n ih =>
      cases hturn : turn stage now t s with
      | ended status t' s' => exact ⟨_, .ended hturn⟩
      | more t' s' =>
          have hgo : Goes stage now (t, s) (t', s') := hturn
          obtain ⟨hc', hlt⟩ := hc.goes h htroupe hroots hgo
          obtain ⟨r, hr⟩ := ih _ (hn ▸ hlt) hc' rfl
          exact ⟨r, .more hturn hr⟩

/-! ## Ticks at a steady pace -/

/-- The tracker and the state after so many ticks, each of them a step later than the one before. -/
def series (stage : Stage σ) (step : ℕ) : ℕ → ℕ → Tracker × σ → Tracker × σ
  | 0, _, c => c
  | n + 1, now, c => series stage step n (now + step) (tick stage now c.1 c.2).2

/-- Ticks at a steady pace come to an end with nothing left to run. Each of them ends, and none
before the last one is idle. -/
theorem drains_of_lasts (h : stage.Serves lib P) (htroupe : Troupe lib events cast base)
    (hroots : Unattended lib roots) (hstep : 0 < step) (now : ℕ) {c : Tracker × σ}
    (hc : Lasts stage lib P events roots c) :
    ∃ n, ∀ i ≤ n, ∃ r, Runs stage (now + i * step) (series stage step i now c).1
      (series stage step i now c).2 r ∧ (r.1 = .idle ↔ i = n) := by
  induction hb : burden cast base now c.1.frames using WellFoundedLT.induction
    generalizing now c with
  | _ b ih =>
      obtain ⟨t, s⟩ := c
      obtain ⟨r, hr⟩ := hc.exists_runs h htroupe hroots now
      cases hstatus : r.1 with
      | idle =>
          refine ⟨0, fun i hi => ?_⟩
          obtain rfl := Nat.le_zero.1 hi
          rw [Nat.zero_mul]
          exact ⟨r, hr, by simp [hstatus]⟩
      | suspended =>
          obtain ⟨hlasts, hlt⟩ := hc.runs h htroupe hroots hstep hr hstatus
          obtain ⟨n, hrest⟩ := ih _ (hb ▸ hlt) (now + step) hlasts rfl
          refine ⟨n + 1, fun i hi => ?_⟩
          cases i with
          | zero =>
              rw [Nat.zero_mul]
              exact ⟨r, hr, by simp [hstatus]⟩
          | succ i =>
              obtain ⟨r', hr', hidle⟩ := hrest i (Nat.le_of_succ_le_succ hi)
              rw [series, hr.tick_eq, Nat.succ_mul, Nat.add_comm (i * step), ← Nat.add_assoc]
              exact ⟨r', hr', by simpa using hidle⟩

/-- Events of which none in reach changes the scene or waits for the player run to their end under
ticks at a steady pace: from any stack of frames with any progress that their operations can have,
at any time and in any state of the stage. Each tick ends, and the last one is the first to be
idle. -/
theorem drains (h : stage.Serves lib P) {t : Tracker} {s : σ} (hs : P s)
    (hreach : Unattended lib t.frames) (hprogress : ∀ f ∈ t.frames, f.Attained stage) (now : ℕ)
    (hstep : 0 < step) :
    ∃ n, ∀ i ≤ n, ∃ r, Runs stage (now + i * step) (series stage step i now (t, s)).1
      (series stage step i now (t, s)).2 r ∧ (r.1 = .idle ↔ i = n) := by
  obtain ⟨cast, base, htroupe⟩ := exists_troupe lib t.frames
  exact drains_of_lasts h htroupe hreach hstep now
    ⟨hs, fun f hf => ⟨⟨f, hf, .refl⟩, hprogress f hf, fun i hi => .ahead hf hi⟩⟩

end

/-- Two events that call each other while a flag is set, with a text, a wait and a fade. -/
def relay : Library :=
  (Library.empty.insert 0 "ping"
    [.say ⟨"Hi", none, 10, false⟩, .flagIf "on" (some "pong") none]).insert 1 "pong"
      [.wait 5, .fadeOut 10, .flagIf "on" (some "ping") none]

theorem passesAll_relay {name : String} {e : Event} (h : relay.find? name = some e) :
    Operation.passesAll isUnattended e.operations = true := by
  rcases Library.eq_or_find?_of_insert h with rfl | h
  · rfl
  · rcases Library.eq_or_find?_of_insert h with rfl | h
    · rfl
    · simp at h

/-- Both events, the one below in the middle of its text, and at the bottom an event that has got
its key and waits. -/
def relaying : Tracker :=
  let ping := Event.make 0 (some "ping")
    [.say ⟨"Hi", none, 10, false⟩, .flagIf "on" (some "pong") none]
  let pong := Event.make 1 (some "pong")
    [.wait 5, .fadeOut 10, .flagIf "on" (some "ping") none]
  let asked := Event.make 2 none [.waitForKey, .wait 3]
  ⟨[.start pong, (Frame.start ping).suspend (.say 1 1 (some 0)),
    (Frame.start asked).advance.suspend (.wait 0)], .silent⟩

theorem drains_relaying :
    let s := Rehearsal.opening relay (.ofList ["on"])
    ∃ n, ∀ i ≤ n, ∃ r,
      Runs Rehearsal.stage (7 + i * 16) (series Rehearsal.stage 16 i 7 (relaying, s)).1
        (series Rehearsal.stage 16 i 7 (relaying, s)).2 r ∧ (r.1 = .idle ↔ i = n) := by
  refine drains (Rehearsal.stage_serves relay) rfl ?_ ?_ 7 (by decide)
  · refine unattended_of_passes (fun _ _ hfind => passesAll_relay hfind) ?_
    simp only [relaying, List.forall_mem_cons]
    exact ⟨rfl, rfl, rfl, by simp⟩
  · simp only [relaying, List.forall_mem_cons]
    refine ⟨Frame.attained_of_fresh rfl, ?_, ?_, by simp⟩
    · intro op hop
      obtain rfl := Option.some.inj hop
      have hshown : (execute Rehearsal.stage (Event.make 0 none []) 0
          (.say ⟨"Hi", none, 10, false⟩) 0 true .fresh .silent (.opening relay .empty)).flow =
            .suspend (.say 1 1 (some 0)) := rfl
      exact .suspended .fresh hshown
    · intro op hop
      obtain rfl := Option.some.inj hop
      have hwaits : (execute Rehearsal.stage (Event.make 0 none []) 0 (.wait 3) 0 true .fresh
          .silent (.opening relay .empty)).flow = .suspend (.wait 0) := by
        simp [execute, waitStep, millis, nanosPerMilli]
      exact .suspended .fresh hwaits

end Tracker

end Cutscene
