import Mathlib.Data.List.Chain
import Mathlib.Data.List.Nodup
import Cutscene.Proofs.Stage.Hosts
import Cutscene.Proofs.Tracker.Turns

/-!
# The life of a frame

A frame keeps where it is in four parts that a turn, a call and the removal of what is above all
change. What they add up to can only be said of a whole run: the operations of one frame are
executed in order, each until it is done and none after that, whatever else runs in between.

`Observed` is a tracker with somebody watching. It takes the tracker's own steps, gives every frame
a number that is never used again, and writes down every execution. `Life` says how the executions
of one frame may follow each other; `Frame.entry` reads off a frame how it goes on. The invariant
ties the two together, and `frames_live_in_order` says what it comes to.
-/

namespace Cutscene

/-- How an operation is executed: where, whether for the first time, and with which progress. -/
structure Entry where
  cursor : Nat
  entering : Bool
  progress : Progress

/-- The first execution of the operation at a position. -/
def Entry.first (cursor : Nat) : Entry := ⟨cursor, true, .fresh⟩

/-- How a frame executes an operation when its turn comes. -/
def Frame.entry (f : Frame) : Entry :=
  ⟨f.resumed.cursor, f.resumed.justEntered, f.resumed.progress⟩

/-- One execution: the number of the frame and its event, how it was made, and what came of it. -/
structure Execution where
  frame : Nat
  event : Event
  entry : Entry
  operation : Operation
  flow : Flow

/-- The execution of the present operation of a frame. -/
def Frame.execution (f : Frame) (n : Nat) (op : Operation) (flow : Flow) : Execution :=
  ⟨n, f.event, ⟨f.cursor, f.justEntered, f.progress⟩, op, flow⟩

namespace Execution

/-- How the same frame executes next, unless its event has been ended: the same operation again with
the progress that it left if it was suspended, otherwise the next operation for the first time. -/
def next? (x : Execution) : Option Entry :=
  match x.flow with
  | .suspend p => some ⟨x.entry.cursor, false, p⟩
  | .next | .call _ => some (.first (x.entry.cursor + 1))
  | .cancel => none

/-- Whether the operation goes on in a later tick. -/
def isSuspended (x : Execution) : Bool :=
  match x.flow with
  | .suspend _ => true
  | _ => false

end Execution

/-! ## What the executions of one frame look like -/

/-- The executions of a frame from its creation on, and how it executes next. -/
inductive Life (e : Event) : List Execution → Option Entry → Prop
  | born : Life e [] (some (.first 0))
  | execute {h : List Execution} {x : Execution} (life : Life e h (some x.entry))
      (event : x.event = e) (operation : e.operations[x.entry.cursor]? = some x.operation) :
      Life e (h ++ [x]) x.next?

/-- Executions of the operations of an event in order. -/
structure Orderly (e : Event) (h : List Execution) : Prop where
  /-- They are executions of the event's operations. -/
  operation : ∀ x ∈ h, x.event = e ∧ e.operations[x.entry.cursor]? = some x.operation
  /-- They begin with the first operation. -/
  first : ∀ x ∈ h.head?, x.entry = .first 0
  /-- None is skipped, and a suspended operation goes on with the progress that it left. -/
  next : h.IsChain fun x y => x.next? = some y.entry
  /-- An operation that is done, or has called an event, is never executed again. -/
  once : h.Pairwise fun x y => x.isSuspended = false → x.entry.cursor < y.entry.cursor
  /-- The first execution at a position, and no other, is told that it is the first. -/
  entering : ∀ before x after, h = before ++ x :: after →
    (x.entry.entering = true ↔ ∀ y ∈ before, y.entry.cursor ≠ x.entry.cursor)

/-- How the executions so far stand to the next one. -/
structure Orderly.Expects (h : List Execution) (entry : Entry) : Prop where
  first : h = [] → entry = .first 0
  next : ∀ x ∈ h.getLast?, x.next? = some entry
  le : ∀ x ∈ h, x.entry.cursor ≤ entry.cursor
  once : ∀ x ∈ h, x.isSuspended = false → x.entry.cursor < entry.cursor
  entering : entry.entering = true ↔ ∀ x ∈ h, x.entry.cursor ≠ entry.cursor

theorem Execution.next?_cases {x : Execution} {entry : Entry} (h : x.next? = some entry) :
    (x.isSuspended = true ∧ entry.cursor = x.entry.cursor ∧ entry.entering = false) ∨
      (entry = .first (x.entry.cursor + 1)) := by
  unfold next? at h
  split at h
  · rename_i hflow
    obtain rfl := Option.some.inj h
    exact Or.inl ⟨by rw [isSuspended, hflow], rfl, rfl⟩
  · exact Or.inr (Option.some.inj h).symm
  · exact Or.inr (Option.some.inj h).symm
  · cases h

theorem Orderly.Expects.append {h : List Execution} {x : Execution} (hx : Expects h x.entry)
    {entry : Entry} (hnext : x.next? = some entry) : Expects (h ++ [x]) entry where
  first hnil := absurd hnil (by simp)
  next y hy := by
    rw [List.getLast?_concat, Option.mem_some_iff] at hy
    rw [← hy, hnext]
  le y hy := by
    have hle : x.entry.cursor ≤ entry.cursor := by
      rcases Execution.next?_cases hnext with ⟨-, hcursor, -⟩ | rfl
      · exact hcursor.ge
      · exact Nat.le_succ _
    rcases List.mem_append.1 hy with hy | hy
    · exact (hx.le y hy).trans hle
    · rw [List.mem_singleton.1 hy]
      exact hle
  once y hy hdone := by
    rcases List.mem_append.1 hy with hy | hy
    · have hlt := hx.once y hy hdone
      rcases Execution.next?_cases hnext with ⟨-, hcursor, -⟩ | rfl
      · rw [hcursor]
        exact hlt
      · exact Nat.lt_succ_of_lt hlt
    · rw [List.mem_singleton.1 hy] at hdone ⊢
      rcases Execution.next?_cases hnext with ⟨hsuspended, -, -⟩ | rfl
      · rw [hdone] at hsuspended
        cases hsuspended
      · exact Nat.lt_succ_self _
  entering := by
    rcases Execution.next?_cases hnext with ⟨-, hcursor, hentering⟩ | rfl
    · refine iff_of_false (by simp [hentering]) ?_
      intro hnone
      exact hnone x (by simp) hcursor.symm
    · refine iff_of_true rfl ?_
      intro y hy
      have hle : y.entry.cursor ≤ x.entry.cursor := by
        rcases List.mem_append.1 hy with hy | hy
        · exact hx.le y hy
        · rw [List.mem_singleton.1 hy]
      exact (Nat.lt_succ_of_le hle).ne

/-- Every life is orderly, and how it goes on is what the order wants next. -/
theorem Life.orderly {e : Event} {h : List Execution} {next : Option Entry}
    (life : Life e h next) : Orderly e h ∧ ∀ entry ∈ next, Orderly.Expects h entry := by
  induction life with
  | born =>
      refine ⟨⟨by simp, by simp, .nil, .nil, by simp⟩, ?_⟩
      intro entry hentry
      obtain rfl := Option.mem_some_iff.1 hentry
      exact ⟨fun _ => rfl, by simp, by simp, by simp, by simp [Entry.first]⟩
  | @execute h x _ event operation ih =>
      obtain ⟨horder, hexpects⟩ := ih
      have hx := hexpects x.entry rfl
      refine ⟨⟨?_, ?_, ?_, ?_, ?_⟩, fun entry hentry => hx.append hentry⟩
      · intro y hy
        rcases List.mem_append.1 hy with hy | hy
        · exact horder.operation y hy
        · rw [List.mem_singleton.1 hy]
          exact ⟨event, operation⟩
      · intro y hy
        cases h with
        | nil =>
            obtain rfl : x = y := by simpa using hy
            exact hx.first rfl
        | cons z h => exact horder.first y (by simpa using hy)
      · refine horder.next.append (.singleton x) ?_
        intro y hy z hz
        obtain rfl : x = z := by simpa using hz
        exact hx.next y hy
      · refine List.pairwise_append.2 ⟨horder.once, List.pairwise_singleton _ x, ?_⟩
        intro y hy z hz
        rw [List.mem_singleton.1 hz]
        exact hx.once y hy
      · -- an execution before the last one has the same ones before it as it had
        intro before y after heq
        rcases List.eq_nil_or_concat after with rfl | ⟨after, z, rfl⟩
        · obtain ⟨rfl, hxy⟩ := List.append_inj' heq rfl
          obtain rfl : x = y := by simpa using hxy
          exact hx.entering
        · have hconcat : h ++ [x] = (before ++ y :: after) ++ [z] := by simpa using heq
          exact horder.entering before y after (List.append_inj' hconcat rfl).1

/-! ## A tracker that is watched -/

/-- A tracker, what it acts on, and what somebody who watches it has written down. -/
structure Observed (σ : Type) where
  tracker : Tracker
  state : σ
  /-- The numbers of the frames, the active one first. -/
  numbers : List Nat
  /-- All numbers so far are below this one. -/
  unused : Nat
  /-- All executions so far, the oldest first. -/
  executions : List Execution

/-- What can happen to a tracker. A tick is a sequence of turns. -/
inductive Action (σ : Type) where
  | turn (now : Nat)
  | call (e : Event)
  | interrupt (e : Event)
  | queueFront (e : Event)
  | cancelCurrent
  | cancelAll
  /-- What the tracker acts on changes of its own accord. -/
  | elsewhere (change : σ → σ)

/-- The tracker and the stage after a turn. -/
def Tracker.Turn.result {σ : Type} : Turn σ → Tracker × σ
  | ended _ t s => (t, s)
  | more t s => (t, s)

namespace Observed

variable {σ : Type} (stage : Stage σ)

/-- Nothing has happened. -/
def start (s : σ) : Observed σ := ⟨.empty, s, [], 0, []⟩

/-- The frames with their numbers. -/
def stack (o : Observed σ) : List (Nat × Frame) := o.numbers.zip o.tracker.frames

/-- The executions of one frame. -/
def history (o : Observed σ) (n : Nat) : List Execution := o.executions.filter (·.frame = n)

/-- The numbers of the frames above one. -/
def above (o : Observed σ) (n : Nat) : List Nat := o.numbers.takeWhile (· ≠ n)

/-- The numbers of the frames after an execution, from those of the settled stack: a queued event
and a called one that is not running take theirs from the unused ones. -/
def renumber (isRunning : Event → Bool) (numbers : List Nat) (unused : Nat) (r : Effect σ) :
    List Nat :=
  let numbers := numbers ++ (r.queued.map fun _ => unused).toList
  match r.flow with
  | .next | .suspend _ => numbers
  | .call e => if isRunning e then numbers else (unused + 1) :: numbers
  | .cancel => numbers.tail

/-- One turn. The frame on top of the settled stack is the one whose operation is executed. -/
def turn (now : Nat) (o : Observed σ) : Observed σ :=
  let (t, s) := (Tracker.turn stage now o.tracker o.state).result
  match Tracker.settle o.tracker.frames with
  | [] => { o with tracker := t, state := s, numbers := [] }
  | f :: below =>
    let numbers := o.numbers.drop (o.tracker.frames.length - (below.length + 1))
    match f.operation? with
    | none => { o with tracker := t, state := s, numbers := numbers }
    | some op =>
      let r := f.perform stage now op o.tracker.voices o.state
      { tracker := t
        state := s
        numbers := renumber (Tracker.isRunning ⟨f.await :: Tracker.queuedBelow r below, r.voices⟩)
          numbers o.unused r
        unused := o.unused + 2
        executions := o.executions ++ [f.execution (numbers.headD 0) op r.flow] }

/-- What the tracker does, and what is written down of it. -/
def act (o : Observed σ) : Action σ → Observed σ
  | .turn now => o.turn stage now
  | .call e =>
    let (called, t, s) := o.tracker.call stage e o.state
    { o with
      tracker := t
      state := s
      numbers := if called then o.unused :: o.numbers else o.numbers
      unused := o.unused + 1 }
  | .interrupt e =>
    let (t, s) := o.tracker.interrupt stage e o.state
    { o with tracker := t, state := s, numbers := [o.unused], unused := o.unused + 1 }
  | .queueFront e =>
    let (t, s) := o.tracker.queueFront stage e o.state
    { o with tracker := t, state := s, numbers := o.numbers ++ [o.unused], unused := o.unused + 1 }
  | .cancelCurrent =>
    let (t, s) := o.tracker.cancelCurrent stage o.state
    { o with tracker := t, state := s, numbers := o.numbers.tail }
  | .cancelAll =>
    let (t, s) := o.tracker.cancelAll stage o.state
    { o with tracker := t, state := s, numbers := [] }
  | .elsewhere change => { o with state := change o.state }

/-- What has been written down after some actions. -/
def run (s : σ) (actions : List (Action σ)) : Observed σ := actions.foldl (act stage) (start s)

/-! ## What one action does -/

/-- What an action can do to what has been written down. A frame on the stack afterwards was there
before and has not been touched, or has been executed, or is new. -/
structure Evolves (o o' : Observed σ) (x? : Option Execution) : Prop where
  executions : o'.executions = o.executions ++ x?.toList
  executed : ∀ x ∈ x?, ∃ f, (x.frame, f) ∈ o.stack ∧ x.event = f.event ∧ x.entry = f.entry ∧
    f.event.operations[x.entry.cursor]? = some x.operation
  /-- What was above the frame that has been executed is gone. -/
  above : ∀ x ∈ x?, ∀ m ∈ o.above x.frame, m ∉ o'.numbers
  unused : o.unused ≤ o'.unused
  length : o'.numbers.length = o'.tracker.frames.length
  nodup : o'.numbers.Nodup
  lt_unused : ∀ n ∈ o'.numbers, n < o'.unused
  stack : ∀ p ∈ o'.stack, (p ∈ o.stack ∧ ∀ x ∈ x?, x.frame ≠ p.1) ∨
    (∃ x ∈ x?, x.frame = p.1 ∧ x.event = p.2.event ∧ x.next? = some p.2.entry) ∨
    (o.unused ≤ p.1 ∧ ∃ e, p.2 = .start e)

/-- What holds at any time. -/
structure Invariant (o : Observed σ) : Prop where
  length : o.numbers.length = o.tracker.frames.length
  nodup : o.numbers.Nodup
  lt_unused : ∀ n ∈ o.numbers, n < o.unused
  known : ∀ x ∈ o.executions, x.frame < o.unused
  /-- A frame goes on as its executions so far ask for. -/
  alive : ∀ p ∈ o.stack, Life p.2.event (o.history p.1) (some p.2.entry)
  /-- So did every frame that is gone. -/
  lived : ∀ n, ∃ e next, Life e (o.history n) next

variable {stage} {o o' : Observed σ} {x? : Option Execution}

theorem number_mem {p : Nat × Frame} (h : p ∈ o.stack) : p.1 ∈ o.numbers := by
  obtain ⟨n, f⟩ := p
  exact (List.of_mem_zip h).1

theorem history_of_executions {n : Nat} (h : o'.executions = o.executions ++ x?.toList) :
    o'.history n = o.history n ++ x?.toList.filter (·.frame = n) := by
  rw [history, h, List.filter_append]
  rfl

theorem history_of_ne {n : Nat} (h : o'.executions = o.executions ++ x?.toList)
    (hne : ∀ x ∈ x?, x.frame ≠ n) : o'.history n = o.history n := by
  rw [history_of_executions h]
  cases x? with
  | none => simp
  | some x => simp [hne x rfl]

theorem history_eq_nil (h : Invariant o) {n : Nat} (hn : o.unused ≤ n) : o.history n = [] := by
  refine List.filter_eq_nil_iff.2 ?_
  intro x hx
  have hlt := h.known x hx
  simp only [decide_eq_true_eq]
  omega

/-- The life of a frame goes on when it is executed. -/
theorem Evolves.life_of_executed (he : Evolves o o' x?) (h : Invariant o) {x : Execution}
    (hx : x ∈ x?) : Life x.event (o'.history x.frame) x.next? := by
  obtain ⟨f, hf, hevent, hentry, hop⟩ := he.executed x hx
  obtain rfl := Option.mem_def.1 hx
  have hhistory : o'.history x.frame = o.history x.frame ++ [x] := by
    rw [history_of_executions he.executions]
    simp
  rw [hhistory]
  have halive := h.alive (x.frame, f) hf
  rw [← hentry] at halive
  rw [← hevent] at hop halive
  exact .execute halive rfl hop

/-- Whatever an action does, the invariant is kept. -/
theorem Invariant.evolve (h : Invariant o) (he : Evolves o o' x?) : Invariant o' where
  length := he.length
  nodup := he.nodup
  lt_unused := he.lt_unused
  known x hx := by
    rw [he.executions] at hx
    have hle := he.unused
    rcases List.mem_append.1 hx with hx | hx
    · exact (h.known x hx).trans_le hle
    · obtain ⟨f, hf, -⟩ := he.executed x (Option.mem_toList.1 hx)
      exact (h.lt_unused _ (number_mem hf)).trans_le hle
  alive p hp := by
    rcases he.stack p hp with ⟨hold, hne⟩ | ⟨x, hx, hn, hevent, hnext⟩ | ⟨hnew, e, heq⟩
    · rw [history_of_ne he.executions hne]
      exact h.alive p hold
    · have hlife := he.life_of_executed h hx
      rw [hn, hevent, hnext] at hlife
      exact hlife
    · -- no execution has the number of a new frame
      have hne : ∀ x ∈ x?, x.frame ≠ p.1 := by
        intro x hx heq
        obtain ⟨f, hf, -⟩ := he.executed x hx
        have hlt := h.lt_unused _ (number_mem hf)
        omega
      rw [history_of_ne he.executions hne, history_eq_nil h hnew, heq]
      exact .born
  lived n := by
    by_cases hx : ∃ x ∈ x?, x.frame = n
    · obtain ⟨x, hx, rfl⟩ := hx
      exact ⟨_, _, he.life_of_executed h hx⟩
    · rw [history_of_ne he.executions (fun x hx' heq => hx ⟨x, hx', heq⟩)]
      exact h.lived n

/-! ## Numbers and frames stay side by side -/

theorem renumber_sublist (isRunning : Event → Bool) (numbers : List Nat) (unused : Nat)
    (r : Effect σ) :
    (renumber isRunning numbers unused r).Sublist ((unused + 1) :: (numbers ++ [unused])) := by
  have hqueued : (numbers ++ (r.queued.map fun _ => unused).toList).Sublist
      (numbers ++ [unused]) := by
    cases r.queued with
    | none => simp
    | some e => simp
  unfold renumber
  dsimp only
  split
  · exact hqueued.cons _
  · exact hqueued.cons _
  · split
    · exact hqueued.cons _
    · exact hqueued.cons_cons _
  · exact ((List.tail_sublist _).trans hqueued).cons _

variable {n unused : Nat} {numbers : List Nat} {f : Frame} {below : List Frame} {r : Effect σ}

theorem length_queuedBelow (h : numbers.length = below.length) :
    (numbers ++ (r.queued.map fun _ => unused).toList).length =
      (Tracker.queuedBelow r below).length := by
  rw [Tracker.queuedBelow_eq, List.length_append, List.length_append, h]
  cases r.queued with
  | none => rfl
  | some e => rfl

/-- What a frame on the stack can be after an execution: one that was below, or the executed one,
which goes on as the execution asks for, or a new one. -/
def StandsAfter (x : Execution) (old : List (Nat × Frame)) (unused : Nat) (p : Nat × Frame) :
    Prop :=
  p ∈ old ∨ (x.frame = p.1 ∧ x.event = p.2.event ∧ x.next? = some p.2.entry) ∨
    (unused ≤ p.1 ∧ ∃ e, p.2 = .start e)

variable {x : Execution}

/-- Below the active frame there is nothing new but a queued event. -/
theorem stands_queued (h : numbers.length = below.length) :
    ∀ p ∈ (numbers ++ (r.queued.map fun _ => unused).toList).zip (Tracker.queuedBelow r below),
      StandsAfter x (numbers.zip below) unused p := by
  intro p hp
  rw [Tracker.queuedBelow_eq, List.zip_append h] at hp
  rcases List.mem_append.1 hp with hp | hp
  · exact Or.inl hp
  · cases hq : r.queued with
    | none => simp [hq] at hp
    | some e =>
        obtain rfl : p = (unused, .start e) := by simpa [hq] using hp
        exact Or.inr (Or.inr ⟨le_rfl, e, rfl⟩)

/-- The executed frame stays on top of them, changed. -/
theorem stands_executed (x : Execution) (f' : Frame) (h : numbers.length = below.length)
    (hevent : x.event = f'.event) (hnext : x.next? = some f'.entry) :
    ∀ p ∈ (x.frame :: (numbers ++ (r.queued.map fun _ => unused).toList)).zip
        (f' :: Tracker.queuedBelow r below),
      StandsAfter x (numbers.zip below) unused p := by
  intro p hp
  rw [List.zip_cons_cons] at hp
  rcases List.mem_cons.1 hp with rfl | hp
  · exact Or.inr (Or.inl ⟨rfl, hevent, hnext⟩)
  · exact stands_queued h p hp

/-- What an execution makes of the stack. -/
theorem stands_follow (hawait : f.awaitingChild = false) (hlength : numbers.length = below.length)
    (op : Operation) {numbers' : List Nat} {frames : List Frame}
    (hframes : frames = (Tracker.follow stage f below r).result.1.frames)
    (hnumbers : numbers' = renumber
      (Tracker.isRunning ⟨f.await :: Tracker.queuedBelow r below, r.voices⟩)
      (n :: numbers) unused r) :
    numbers'.length = frames.length ∧ ∀ p ∈ numbers'.zip frames,
      StandsAfter (f.execution n op r.flow) (numbers.zip below) unused p := by
  have hlen : (numbers ++ (r.queued.map fun _ => unused).toList).length =
      (Tracker.queuedBelow r below).length := length_queuedBelow hlength
  have htop : ∀ (flow : Flow) (f' : Frame), f.event = f'.event →
      (f.execution n op flow).next? = some f'.entry →
      ∀ p ∈ (n :: (numbers ++ (r.queued.map fun _ => unused).toList)).zip
          (f' :: Tracker.queuedBelow r below),
        StandsAfter (f.execution n op flow) (numbers.zip below) unused p :=
    fun flow f' => stands_executed (f.execution n op flow) f' hlength
  subst hframes hnumbers
  rw [renumber, List.cons_append]
  cases hflow : r.flow with
  | next =>
      rw [Tracker.follow_next hflow]
      exact ⟨congrArg Nat.succ hlen, htop _ f.advance rfl rfl⟩
  | suspend p =>
      rw [Tracker.follow_suspend hflow]
      refine ⟨congrArg Nat.succ hlen, htop _ (f.suspend p) rfl ?_⟩
      -- it waits for nothing, so it goes on as it is
      rw [Frame.entry, Frame.resumed_of_not_awaiting (f := f.suspend p) hawait]
      rfl
  | call e =>
      cases hruns : Tracker.isRunning ⟨f.await :: Tracker.queuedBelow r below, r.voices⟩ e with
      | true =>
          rw [Tracker.follow_refused hflow hruns]
          simp only [hruns, if_true]
          exact ⟨congrArg Nat.succ hlen, htop _ f.advance rfl rfl⟩
      | false =>
          rw [Tracker.follow_call hflow hruns]
          simp only [hruns, Bool.false_eq_true, if_false]
          refine ⟨congrArg (· + 2) hlen, ?_⟩
          intro p hp
          rcases List.mem_cons.1 hp with rfl | hp
          · exact Or.inr (Or.inr ⟨Nat.le_succ _, e, rfl⟩)
          · -- the caller goes on with its next operation when the called event has ended
            exact htop _ f.await rfl rfl p hp
  | cancel =>
      rw [Tracker.follow_cancel hflow]
      exact ⟨hlen, stands_queued hlength⟩

/-! ## Every action -/

theorem exists_split {numbers : List Nat} {above below : List Frame} {g : Frame}
    (h : numbers.length = (above ++ g :: below).length) :
    ∃ na n nb, numbers = na ++ n :: nb ∧ na.length = above.length ∧ nb.length = below.length := by
  have hlt : above.length < numbers.length := by
    rw [h, List.length_append, List.length_cons]
    omega
  refine ⟨numbers.take above.length, numbers[above.length], numbers.drop (above.length + 1), ?_, ?_,
    ?_⟩
  · rw [← List.drop_eq_getElem_cons hlt, List.take_append_drop]
  · rw [List.length_take]
    omega
  · rw [List.length_drop, h, List.length_append, List.length_cons]
    omega

theorem above_eq {na nb : List Nat} (hnumbers : o.numbers = na ++ n :: nb)
    (hnodup : o.numbers.Nodup) : o.above n = na := by
  rw [hnumbers] at hnodup
  have hna : ∀ m ∈ na, decide (m ≠ n) = true := by
    intro m hm
    exact decide_eq_true ((List.nodup_append.1 hnodup).2.2 m hm n List.mem_cons_self)
  rw [above, hnumbers, List.takeWhile_append_of_pos hna]
  simp

theorem nodup_extend (hnodup : numbers.Nodup) (hlt : ∀ m ∈ numbers, m < unused) :
    ((unused + 1) :: (numbers ++ [unused])).Nodup := by
  refine List.nodup_cons.2 ⟨?_, List.nodup_append.2 ⟨hnodup, by simp, ?_⟩⟩
  · intro hmem
    rcases List.mem_append.1 hmem with hmem | hmem
    · exact absurd (hlt _ hmem) (by omega)
    · exact absurd (List.mem_singleton.1 hmem) (by omega)
  · intro m hm k hk
    rw [List.mem_singleton.1 hk]
    exact (hlt m hm).ne

/-- A frame comes to the top when those above it have ended: where it is on the stack. -/
structure Surfaces (o : Observed σ) (na : List Nat) (above : List Frame) (n : Nat) (g : Frame)
    (nb : List Nat) (below : List Frame) : Prop where
  numbers : o.numbers = na ++ n :: nb
  frames : o.tracker.frames = above ++ g :: below
  length : na.length = above.length

section

variable {na nb numbers' : List Nat} {above : List Frame} {g : Frame}
  (hs : Surfaces o na above n g nb below) (h : Invariant o)

include hs

theorem Surfaces.stack_eq : o.stack = na.zip above ++ (n, g) :: nb.zip below := by
  rw [stack, hs.numbers, hs.frames, List.zip_append hs.length, List.zip_cons_cons]

include h

theorem Surfaces.nodup : (n :: nb).Nodup := by
  have hnodup := h.nodup
  rw [hs.numbers] at hnodup
  exact (List.nodup_append.1 hnodup).2.1

theorem Surfaces.lt_unused : ∀ m ∈ na ++ n :: nb, m < o.unused := by
  rw [← hs.numbers]
  exact h.lt_unused

variable (hsub : numbers'.Sublist ((o.unused + 1) :: ((n :: nb) ++ [o.unused])))

include hsub

theorem Surfaces.nodup_of_sublist : numbers'.Nodup := by
  refine hsub.nodup (nodup_extend (hs.nodup h) ?_)
  exact fun m hm => hs.lt_unused h m (List.mem_append_right na hm)

theorem Surfaces.lt_of_sublist : ∀ m ∈ numbers', m < o.unused + 2 := by
  intro m hm
  rcases List.mem_cons.1 (hsub.mem hm) with rfl | hm
  · omega
  · rcases List.mem_append.1 hm with hm | hm
    · have hlt := hs.lt_unused h m (List.mem_append_right na hm)
      omega
    · rw [List.mem_singleton.1 hm]
      omega

/-- The numbers of the frames above do not come back. -/
theorem Surfaces.not_mem_of_sublist : ∀ m ∈ o.above n, m ∉ numbers' := by
  intro m hm hmem
  rw [above_eq hs.numbers h.nodup] at hm
  have hlt := hs.lt_unused h m (List.mem_append_left _ hm)
  have hnodup := h.nodup
  rw [hs.numbers] at hnodup
  rcases List.mem_cons.1 (hsub.mem hmem) with heq | hmem
  · omega
  · rcases List.mem_append.1 hmem with hmem | hmem
    · exact (List.nodup_append.1 hnodup).2.2 m hm m hmem rfl
    · have heq := List.mem_singleton.1 hmem
      omega

/-- The execution of the frame that comes to the top. -/
theorem Surfaces.evolves {op : Operation} {flow : Flow} {t : Tracker} {s : σ}
    (hop : g.resumed.operation? = some op)
    (hstands : numbers'.length = t.frames.length ∧ ∀ p ∈ numbers'.zip t.frames,
      StandsAfter (g.resumed.execution n op flow) (nb.zip below) o.unused p) :
    Evolves o ⟨t, s, numbers', o.unused + 2, o.executions ++ [g.resumed.execution n op flow]⟩
      (some (g.resumed.execution n op flow)) where
  executions := rfl
  executed := by
    intro x hx
    obtain rfl := Option.some.inj hx
    rw [Frame.operation?, Frame.event_resumed] at hop
    refine ⟨g, ?_, Frame.event_resumed g, rfl, hop⟩
    rw [hs.stack_eq]
    exact List.mem_append_right _ List.mem_cons_self
  above := by
    intro x hx
    obtain rfl := Option.some.inj hx
    exact hs.not_mem_of_sublist h hsub
  unused := Nat.le_add_right _ _
  length := hstands.1
  nodup := hs.nodup_of_sublist h hsub
  lt_unused := hs.lt_of_sublist h hsub
  stack := by
    intro p hp
    rcases hstands.2 p hp with hp | hexecuted | hnew
    · refine Or.inl ⟨?_, ?_⟩
      · rw [hs.stack_eq]
        exact List.mem_append_right _ (List.mem_cons_of_mem _ hp)
      · intro x hx heq
        obtain rfl := Option.some.inj hx
        have hmem : n ∈ nb := by
          rw [show n = p.1 from heq]
          exact (List.of_mem_zip hp).1
        exact (List.nodup_cons.1 (hs.nodup h)).1 hmem
    · exact Or.inr (Or.inl ⟨_, rfl, hexecuted⟩)
    · exact Or.inr (Or.inr hnew)

end

/-- A turn of a stack that is not at its end. -/
theorem turn_of_settle {op : Operation} {nb : List Nat} (now : Nat)
    (hsettle : Tracker.settle o.tracker.frames = f :: below) (hop : f.operation? = some op)
    (hkept : o.numbers.drop (o.tracker.frames.length - (below.length + 1)) = n :: nb) :
    o.turn stage now =
      let r := f.perform stage now op o.tracker.voices o.state
      let c := (Tracker.follow stage f below r).result
      ⟨c.1, c.2, renumber (Tracker.isRunning ⟨f.await :: Tracker.queuedBelow r below, r.voices⟩)
        (n :: nb) o.unused r, o.unused + 2, o.executions ++ [f.execution n op r.flow]⟩ := by
  obtain ⟨op', hop', hturn : Tracker.turn stage now o.tracker o.state = _⟩ :=
    Tracker.turn_active hsettle o.tracker.voices o.state
  obtain rfl : op = op' := Option.some.inj (hop.symm.trans hop')
  simp only [turn, hsettle, hop, hkept, hturn, List.headD_cons]

theorem turn_of_settle_nil (now : Nat) (hsettle : Tracker.settle o.tracker.frames = []) :
    o.turn stage now = ⟨⟨[], o.tracker.voices⟩, o.state, [], o.unused, o.executions⟩ := by
  have hturn : Tracker.turn stage now o.tracker o.state =
      .ended .idle ⟨[], o.tracker.voices⟩ o.state := Tracker.turn_idle hsettle _ _
  simp only [turn, hturn, hsettle, Tracker.Turn.result]

/-- A turn executes at most one frame, and what was above that is gone. -/
theorem evolves_turn (h : Invariant o) (now : Nat) : ∃ x?, Evolves o (o.turn stage now) x? := by
  cases hsettle : Tracker.settle o.tracker.frames with
  | nil =>
      refine ⟨none, ?_⟩
      rw [turn_of_settle_nil now hsettle]
      exact ⟨by simp, by simp, by simp, le_rfl, rfl, .nil, by simp, by simp [stack]⟩
  | cons f below =>
      obtain ⟨above, g, hframes, rfl, hfin, -⟩ := Tracker.exists_of_settle_eq_cons hsettle
      obtain ⟨op, hop⟩ := Frame.exists_operation hfin
      -- the numbers split where the frames do
      obtain ⟨na, n, nb, hnumbers, hna, hnb⟩ := exists_split (hframes ▸ h.length)
      have hkept : o.numbers.drop (o.tracker.frames.length - (below.length + 1)) = n :: nb := by
        rw [hframes, hnumbers, List.length_append, List.length_cons, Nat.add_sub_cancel, ← hna,
          List.drop_left]
      set r := g.resumed.perform stage now op o.tracker.voices o.state with hr
      refine ⟨some (g.resumed.execution n op r.flow), ?_⟩
      rw [turn_of_settle now hsettle hop hkept, ← hr]
      have hs : Surfaces o na above n g nb below := ⟨hnumbers, hframes, hna⟩
      exact hs.evolves h (renumber_sublist _ _ _ _) hop
        (stands_follow (Frame.awaitingChild_resumed g) hnb op rfl rfl)

/-- An action that executes nothing: frames go, and new ones come. -/
theorem evolves_quietly (hexecutions : o'.executions = o.executions)
    (hunused : o.unused ≤ o'.unused)
    (hlength : o'.numbers.length = o'.tracker.frames.length) (hnodup : o'.numbers.Nodup)
    (hlt : ∀ n ∈ o'.numbers, n < o'.unused)
    (hstack : ∀ p ∈ o'.stack, p ∈ o.stack ∨ (o.unused ≤ p.1 ∧ ∃ e, p.2 = .start e)) :
    Evolves o o' none where
  executions := by simp [hexecutions]
  executed := by simp
  above := by simp
  unused := hunused
  length := hlength
  nodup := hnodup
  lt_unused := hlt
  stack p hp := by
    rcases hstack p hp with hp | hp
    · exact Or.inl ⟨hp, by simp⟩
    · exact Or.inr (Or.inr hp)

theorem evolves_call (h : Invariant o) (e : Event) : Evolves o (o.act stage (.call e)) none := by
  have hlt : ∀ n ∈ o.numbers, n < o.unused + 1 := fun n hn => Nat.lt_succ_of_lt (h.lt_unused n hn)
  cases hruns : o.tracker.isRunning e with
  | true =>
      simp only [act, Tracker.call, hruns, if_true]
      exact evolves_quietly rfl (Nat.le_succ _) h.length h.nodup hlt fun p hp => Or.inl hp
  | false =>
      simp only [act, Tracker.call, hruns, if_true, Bool.false_eq_true, if_false]
      refine evolves_quietly rfl (Nat.le_succ _) (by simp [h.length]) ?_ ?_ ?_
      · exact List.nodup_cons.2 ⟨fun hmem => (h.lt_unused _ hmem).false, h.nodup⟩
      · exact List.forall_mem_cons.2 ⟨Nat.lt_succ_self _, hlt⟩
      · intro p hp
        rw [stack, List.zip_cons_cons] at hp
        rcases List.mem_cons.1 hp with rfl | hp
        · exact Or.inr ⟨le_rfl, e, rfl⟩
        · exact Or.inl hp

theorem evolves_interrupt (e : Event) : Evolves o (o.act stage (.interrupt e)) none := by
  simp only [act, Tracker.interrupt, Tracker.cancelAll, Tracker.call, Tracker.isRunning,
    List.any_nil, Bool.false_eq_true, if_false]
  refine evolves_quietly rfl (Nat.le_succ _) rfl (by simp) (by simp) ?_
  intro p hp
  obtain rfl : p = (o.unused, .start e) := by simpa [stack] using hp
  exact Or.inr ⟨le_rfl, e, rfl⟩

theorem evolves_queueFront (h : Invariant o) (e : Event) :
    Evolves o (o.act stage (.queueFront e)) none := by
  simp only [act, Tracker.queueFront, Tracker.enqueue]
  refine evolves_quietly rfl (Nat.le_succ _) (by simp [h.length]) ?_ ?_ ?_
  · exact (nodup_extend h.nodup h.lt_unused).of_cons
  · intro n hn
    rcases List.mem_append.1 hn with hn | hn
    · exact Nat.lt_succ_of_lt (h.lt_unused n hn)
    · rw [List.mem_singleton.1 hn]
      exact Nat.lt_succ_self _
  · intro p hp
    rw [stack, List.zip_append h.length] at hp
    rcases List.mem_append.1 hp with hp | hp
    · exact Or.inl hp
    · obtain rfl : p = (o.unused, .start e) := by simpa using hp
      exact Or.inr ⟨le_rfl, e, rfl⟩

theorem evolves_cancelCurrent (h : Invariant o) :
    Evolves o (o.act stage .cancelCurrent) none := by
  have hframes : (o.tracker.cancelCurrent stage o.state).1.frames = o.tracker.frames.tail := by
    unfold Tracker.cancelCurrent
    cases hf : o.tracker.frames with
    | nil => exact hf
    | cons f below => rfl
  refine evolves_quietly rfl le_rfl ?_ ?_ ?_ ?_
  · show o.numbers.tail.length = (o.tracker.cancelCurrent stage o.state).1.frames.length
    rw [hframes, List.length_tail, List.length_tail, h.length]
  · exact h.nodup.sublist (List.tail_sublist _)
  · exact fun n hn => h.lt_unused n (List.mem_of_mem_tail hn)
  · intro p hp
    have hp : p ∈ o.numbers.tail.zip (o.tracker.cancelCurrent stage o.state).1.frames := hp
    rw [hframes, ← List.tail_zip] at hp
    exact Or.inl (List.mem_of_mem_tail hp)

/-- Every action does what an action can do. -/
theorem evolves_act (stage : Stage σ) (h : Invariant o) (a : Action σ) :
    ∃ x?, Evolves o (o.act stage a) x? := by
  cases a with
  | turn now => exact evolves_turn h now
  | call e => exact ⟨none, evolves_call h e⟩
  | interrupt e => exact ⟨none, evolves_interrupt e⟩
  | queueFront e => exact ⟨none, evolves_queueFront h e⟩
  | cancelCurrent => exact ⟨none, evolves_cancelCurrent h⟩
  | cancelAll =>
      exact ⟨none, evolves_quietly rfl le_rfl rfl .nil (by simp [act]) (by simp [act, stack])⟩
  | elsewhere change =>
      exact ⟨none, evolves_quietly rfl le_rfl h.length h.nodup h.lt_unused fun p hp => Or.inl hp⟩

theorem invariant_start (s : σ) : Invariant (start s) where
  length := rfl
  nodup := .nil
  lt_unused := by simp [start]
  known := by simp [start]
  alive := by simp [start, stack]
  lived _ := ⟨default, _, .born⟩

theorem invariant_run (s : σ) (actions : List (Action σ)) : Invariant (run stage s actions) := by
  induction actions using List.reverseRecOn with
  | nil => exact invariant_start s
  | append_singleton actions a ih =>
      rw [run, List.foldl_concat]
      obtain ⟨x?, he⟩ := evolves_act stage ih a
      exact ih.evolve he

/-! ## Lives -/

theorem eq_of_number_eq (h : Invariant o) {f f' : Frame} (hf : (n, f) ∈ o.stack)
    (hf' : (n, f') ∈ o.stack) : f' = f := by
  have hkeys : (o.stack.map Prod.fst).Nodup := by
    rw [stack, List.map_fst_zip h.length.le]
    exact h.nodup
  exact congrArg Prod.snd (List.inj_on_of_nodup_map hkeys hf' hf rfl)

/-- A frame changes only when it is executed, and then nothing is left of what was above it. -/
theorem Evolves.executed_of_ne (he : Evolves o o' x?) (h : Invariant o) {f f' : Frame}
    (hf : (n, f) ∈ o.stack) (hf' : (n, f') ∈ o'.stack) (hne : f' ≠ f) :
    (∃ x, o'.executions = o.executions ++ [x] ∧ x.frame = n ∧ x.entry = f.entry) ∧
      ∀ m ∈ o.above n, m ∉ o'.numbers := by
  rcases he.stack _ hf' with ⟨hold, -⟩ | ⟨x, hx, rfl, -, -⟩ | ⟨hnew, -⟩
  · exact absurd (eq_of_number_eq h hf hold) hne
  · refine ⟨⟨x, ?_, rfl, ?_⟩, he.above x hx⟩
    · rw [he.executions, Option.mem_def.1 hx]
      rfl
    · obtain ⟨g, hg, -, hentry, -⟩ := he.executed x hx
      rw [hentry, eq_of_number_eq h hf hg]
  · exact absurd (h.lt_unused n (number_mem hf)) (Nat.not_lt.2 hnew)

theorem tracker_turn (stage : Stage σ) (o : Observed σ) (now : Nat) :
    ((o.turn stage now).tracker, (o.turn stage now).state) =
      (Tracker.turn stage now o.tracker o.state).result := by
  unfold turn
  dsimp only
  split
  · rfl
  · split <;> rfl

/-- A tick that ends is a sequence of turns. -/
theorem exists_turns {now : Nat} {t : Tracker} {s : σ} {r : TickStatus × Tracker × σ}
    (h : Tracker.Runs stage now t s r) (o : Observed σ) (ht : o.tracker = t) (hs : o.state = s) :
    ∃ k, let o' := (List.replicate k (.turn now)).foldl (act stage) o
      o'.tracker = r.2.1 ∧ o'.state = r.2.2 := by
  induction h generalizing o with
  | ended hturn =>
      have heq := tracker_turn stage o now
      rw [ht, hs, hturn] at heq
      exact ⟨1, Prod.mk.inj heq⟩
  | more hturn _ ih =>
      have heq := tracker_turn stage o now
      rw [ht, hs, hturn] at heq
      obtain ⟨htracker, hstate⟩ := Prod.mk.inj heq
      obtain ⟨k, hk⟩ := ih (o.turn stage now) htracker hstate
      exact ⟨k + 1, hk⟩

/-- Whatever happens to a tracker, every frame lives in order: its operations are executed from the
first on, none skipped and none repeated once it is done, and a suspended one goes on with the
progress that it left. Only frames on the stack are executed. A frame changes only when it is
executed, with nothing left of what was above it. The actions may be anything, and whole ticks are
among them. -/
theorem frames_live_in_order (stage : Stage σ) (s : σ) (actions : List (Action σ)) :
    let o := run stage s actions
    (∀ n, ∃ e, Orderly e (o.history n)) ∧
    (∀ p ∈ o.stack, Orderly p.2.event (o.history p.1)) ∧
    (∀ a x, (o.act stage a).executions = o.executions ++ [x] →
      ∃ f, (x.frame, f) ∈ o.stack ∧ x.event = f.event ∧ x.entry = f.entry) ∧
    (∀ a n f f', (n, f) ∈ o.stack → (n, f') ∈ (o.act stage a).stack → f' ≠ f →
      (∃ x, (o.act stage a).executions = o.executions ++ [x] ∧ x.frame = n ∧ x.entry = f.entry) ∧
        ∀ m ∈ o.above n, m ∉ (o.act stage a).numbers) ∧
    (∀ now status t' s', Tracker.Runs stage now o.tracker o.state (status, t', s') →
      ∃ k, let o' := run stage s (actions ++ List.replicate k (.turn now))
        o'.tracker = t' ∧ o'.state = s') := by
  intro o
  have h : Invariant o := invariant_run s actions
  refine ⟨?_, ?_, ?_, ?_, ?_⟩
  · intro n
    obtain ⟨e, next, hlife⟩ := h.lived n
    exact ⟨e, hlife.orderly.1⟩
  · intro p hp
    exact (h.alive p hp).orderly.1
  · intro a x hx
    obtain ⟨x?, he⟩ := evolves_act stage h a
    have hx? : x?.toList = [x] := List.append_cancel_left (he.executions.symm.trans hx)
    obtain ⟨f, hf, hevent, hentry, -⟩ := he.executed x (Option.mem_toList.1 (by simp [hx?]))
    exact ⟨f, hf, hevent, hentry⟩
  · intro a n f f' hf hf' hne
    obtain ⟨x?, he⟩ := evolves_act stage h a
    exact he.executed_of_ne h hf hf' hne
  · intro now status t' s' hrun
    obtain ⟨k, hk⟩ := exists_turns hrun o rfl rfl
    refine ⟨k, ?_⟩
    rw [run, List.foldl_append]
    exact hk

/-- A wait that another event interrupts. -/
example :
    let waits := Event.make 0 none [.wait 5, .hideBox]
    let hides := Event.make 1 none [.hideBox]
    let actions := [.call waits, .turn 0, .call hides, .turn 0, .turn 1000, .turn 9000000,
      .turn 9000000]
    ((run Rehearsal.stage (.opening .empty .empty) actions).history 0).map (·.entry) =
      [⟨0, true, .fresh⟩, ⟨0, false, .wait 0⟩, ⟨0, false, .wait 0⟩, .first 1] := by
  rfl

end Observed

end Cutscene
