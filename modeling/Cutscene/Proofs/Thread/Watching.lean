import Mathlib.Data.List.InsertIdx
import Cutscene.Thread.Scheduler

/-!
# A machine that is watched

The scheduler hands contexts to a machine and takes them back, and what it does to them shows only
in what it asks of the machine. `Machine.watched` is a machine with somebody watching: it gives
every context a number when it is prepared and writes down every request.

A scheduler cannot tell a watched machine from the machine itself. Without the numbers, each of its
operations does the same over both (`turn_watched` and the lemmas beside it), and a tick that ends
over the machine ends when it is watched, with the same result (`Runs.exists_watched`).
-/

namespace Cutscene

variable {σ φ α κ : Type}

/-- A context with its number. -/
structure Numbered (κ : Type) where
  number : Nat
  context : κ

namespace Machine

/-- What was asked of a machine, and what of the answer matters to the scheduler. -/
inductive Request (φ α : Type) where
  /-- A context was to be prepared; it has a number if it was. -/
  | prepare (function : φ) (args : Option α) (context : Option Nat)
  /-- A context was resumed at a time with a deadline, and the resume ended in a state. -/
  | resume (context : Nat) (now : Nat) (deadline : Deadline) (state : ContextState)
  | abort (context : Nat)
  | recycle (context : Nat)
  | takeSpawned (spawned : List (SpawnRequest φ α))
  | collectStep
  | collectFull

end Machine

/-- The state of a machine that is watched. -/
structure Watched (σ φ α : Type) where
  state : σ
  /-- All requests so far, the oldest first. -/
  requests : List (Machine.Request φ α)
  /-- How many contexts have been prepared; they have the numbers below this one. -/
  prepared : Nat

namespace Watched

/-- Nothing has been asked. -/
def start (s : σ) : Watched σ φ α := ⟨s, [], 0⟩

/-- Writes a request down that has led to a state. -/
def write (r : Machine.Request φ α) (s : σ) (w : Watched σ φ α) : Watched σ φ α :=
  ⟨s, w.requests ++ [r], w.prepared⟩

end Watched

/-- The machine with somebody watching. -/
def Machine.watched (m : Machine σ φ α κ) : Machine (Watched σ φ α) φ α (Numbered κ) where
  now w := m.now w.state
  note l w := { w with state := m.note l w.state }
  prepare f args w :=
    match m.prepare f args w.state with
    | (.error e, s) => (.error e, w.write (.prepare f args none) s)
    | (.ok c, s) =>
      (.ok ⟨w.prepared, c⟩,
        { w.write (.prepare f args (some w.prepared)) s with prepared := w.prepared + 1 })
  resume c d w :=
    let r := m.resume c.context d w.state
    (r.1, ⟨c.number, r.2.1⟩, w.write (.resume c.number (m.now w.state) d r.1) r.2.2)
  abort c w :=
    let r := m.abort c.context w.state
    (⟨c.number, r.1⟩, w.write (.abort c.number) r.2)
  recycle c w := w.write (.recycle c.number) (m.recycle c.context w.state)
  takeSpawned w :=
    let r := m.takeSpawned w.state
    (r.1, w.write (.takeSpawned r.1) r.2)
  collectStep w := w.write .collectStep (m.collectStep w.state)
  collectFull w := w.write .collectFull (m.collectFull w.state)
  label c := m.label c.context

/-- A thread without the number of its context. -/
def Thread.bare (t : Thread (Numbered κ)) : Thread κ :=
  ⟨t.id, t.label, t.context.context, t.keepAlive⟩

namespace Scheduler

/-- A scheduler without the numbers of its contexts. -/
def bare (sch : Scheduler (Numbered κ)) : Scheduler κ :=
  ⟨sch.threads.map Thread.bare, sch.retained.map fun _ c => c.context, sch.nextId, sch.watchdog⟩

/-- A scheduler with the contexts of its threads numbered from the front. -/
def numbered (sch : Scheduler κ) : Scheduler (Numbered κ) :=
  ⟨sch.threads.zipIdx.map fun t => ⟨t.1.id, t.1.label, ⟨t.2, t.1.context⟩, t.1.keepAlive⟩,
    sch.retained.map fun id c => ⟨id, c⟩, sch.nextId, sch.watchdog⟩

theorem bare_numbered (sch : Scheduler κ) : sch.numbered.bare = sch := by
  have hthreads : sch.numbered.threads.map Thread.bare = sch.threads := by
    rw [numbered, List.map_map]
    exact List.zipIdx_map_fst 0 sch.threads
  have hretained : sch.numbered.retained.map (fun _ c => c.context) = sch.retained := by
    ext id c
    simp [numbered]
  rw [bare, hthreads, hretained]
  rfl

theorem numbers_numbered (sch : Scheduler κ) :
    sch.numbered.threads.map (·.context.number) = List.range sch.threads.length := by
  rw [numbered, List.map_map, List.range_eq_range']
  exact List.zipIdx_map_snd 0 sch.threads

/-! ## Watching changes nothing -/

section

variable (m : Machine σ φ α κ) (sch : Scheduler (Numbered κ)) (w : Watched σ φ α)

theorem createThread_watched (function : φ) (args : Option α) (keepAlive : Bool) :
    createThread m function args keepAlive sch.bare w.state =
      let r := createThread m.watched function args keepAlive sch w
      (r.1, r.2.1.bare, r.2.2.state) := by
  rcases h : m.prepare function args w.state with ⟨e | c, s⟩
  · simp only [createThread, Machine.watched, h]
    rfl
  · simp only [createThread, Machine.watched, h]
    simp [bare, Thread.bare, Watched.write]

theorem createSpawned_watched (requests : List (SpawnRequest φ α)) :
    createSpawned m requests sch.bare w.state =
      let r := createSpawned m.watched requests sch w
      (r.1.bare, r.2.state) := by
  induction requests generalizing sch w with
  | nil => rfl
  | cons r requests ih =>
      simp only [createSpawned, List.foldl_cons, createThread_watched] at ih ⊢
      exact ih _ _

theorem bare_insert_retained (t : Thread (Numbered κ)) :
    bare { sch with retained := sch.retained.insert t.id t.context } =
      { sch.bare with retained := sch.bare.retained.insert t.id t.context.context } := by
  have hinsert : (sch.retained.insert t.id t.context).map (fun _ c => c.context) =
      (sch.retained.map fun _ c => c.context).insert t.id t.context.context := by
    ext id c
    simp only [Std.ExtTreeMap.getElem?_map, Std.ExtTreeMap.getElem?_insert]
    split <;> simp
  simp only [bare, hinsert]

theorem retire_watched (t : Thread (Numbered κ)) (state : ContextState) :
    retire m t.bare state sch.bare w.state =
      let r := retire m.watched t state sch w
      (r.1.bare, r.2.state) := by
  cases hkeep : t.keepAlive with
  | true =>
      simp only [retire, Thread.bare, hkeep, if_true, bare_insert_retained]
      split <;> rfl
  | false =>
      simp only [retire, Thread.bare, hkeep, Bool.false_eq_true, if_false]
      split <;> rfl

theorem resume_watched (watchdog : Watchdog) (t : Thread (Numbered κ)) :
    resume m watchdog t.bare w.state =
      let r := resume m.watched watchdog t w
      (r.1, r.2.1.bare, r.2.2.1, r.2.2.2.state) :=
  rfl

theorem turn_watched (index : Nat) :
    turn m index sch.bare w.state =
      (turn m.watched index sch w).map fun r => (r.1, r.2.1.bare, r.2.2.state) := by
  have hget : sch.bare.threads[index]? = sch.threads[index]?.map Thread.bare := by simp [bare]
  cases h : sch.threads[index]? with
  | none => simp only [turn, hget, h, Option.map_none]
  | some t =>
      have hset : ∀ t', sch.bare.putAt index t'.bare = (sch.putAt index t').bare := by
        simp [putAt, bare, List.map_set]
      have herase : ∀ sch : Scheduler (Numbered κ),
          sch.bare.removeAt index = (sch.removeAt index).bare := by
        simp [removeAt, bare, List.eraseIdx_map]
      have hwatchdog : sch.bare.watchdog = sch.watchdog := rfl
      simp only [turn, hget, h, Option.map_some, hwatchdog, resume_watched]
      rcases resume m.watched sch.watchdog t w with ⟨state, t', requests, w'⟩
      simp only [hset, createSpawned_watched]
      rcases createSpawned m.watched requests (sch.putAt index t') w' with ⟨sch', w''⟩
      simp only [herase, retire_watched]
      split <;> rfl

theorem abortAll_watched :
    abortAll m sch.bare w.state =
      let r := abortAll m.watched sch w
      (r.1.bare, r.2.state) := by
  have hfold : ∀ (ts : List (Thread (Numbered κ))) (w : Watched σ φ α),
      (ts.map Thread.bare).foldl (discard m) w.state = (ts.foldl (discard m.watched) w).state := by
    intro ts
    induction ts with
    | nil => exact fun w => rfl
    | cons t ts ih => exact fun w => ih (discard m.watched w t)
  unfold abortAll
  simp only [bare, List.isEmpty_map, List.length_map]
  split
  · exact congrArg (fun s => (_, m.collectFull s)) (hfold sch.threads w)
  · exact congrArg (fun s => (_, m.collectFull s)) (hfold sch.threads (m.watched.note _ w))

theorem takeRetained_bare (id : Nat) :
    sch.bare.takeRetained id =
      ((sch.takeRetained id).1.map (·.context), (sch.takeRetained id).2.bare) := by
  have herase : (sch.retained.map fun _ c => c.context).erase id =
      (sch.retained.erase id).map fun _ c => c.context := by
    ext other c
    simp only [Std.ExtTreeMap.getElem?_map, Std.ExtTreeMap.getElem?_erase]
    split <;> simp
  simp only [takeRetained, bare, herase, Std.ExtTreeMap.getElem?_map]

end

/-! ## Ticks -/

section

variable {m : Machine σ φ α κ} {index : Nat} {sch : Scheduler κ} {s : σ} {r : Scheduler κ × σ}

theorem resumeFrom_eq (m : Machine σ φ α κ) (index : Nat) (sch : Scheduler κ) (s : σ) :
    resumeFrom m index sch s =
      match turn m index sch s with
      | some (index', sch', s') => resumeFrom m index' sch' s'
      | none => (sch, s) := by
  have hnonempty : Nonempty (Scheduler κ × σ) := ⟨sch, s⟩
  unfold resumeFrom
  -- in the identity monad the loop is a fixed point of its body
  rw [repeatM_eq_of_monadTail]
  unfold repeatM.body
  simp only [bind, pure]
  cases turn m index sch s with
  | none => rfl
  | some next => rfl

/-- A tick that ends, from the position that it has come to: its turns, and what it leaves. -/
inductive Runs (m : Machine σ φ α κ) : Nat → Scheduler κ → σ → Scheduler κ × σ → Prop
  | done {index : Nat} {sch : Scheduler κ} {s : σ} (hturn : turn m index sch s = none) :
      Runs m index sch s (sch, s)
  | more {index index' : Nat} {sch sch' : Scheduler κ} {s s' : σ} {r : Scheduler κ × σ}
      (hturn : turn m index sch s = some (index', sch', s')) (hrest : Runs m index' sch' s' r) :
      Runs m index sch s r

/-- A tick that ends is what `tick` says. -/
theorem Runs.resumeFrom_eq (h : Runs m index sch s r) : resumeFrom m index sch s = r := by
  induction h with
  | done hturn => rw [Scheduler.resumeFrom_eq, hturn]
  | more hturn _ ih =>
      rw [Scheduler.resumeFrom_eq, hturn]
      exact ih

theorem tick_of_no_threads (m : Machine σ φ α κ) (h : sch.threads = []) (s : σ) :
    tick m sch s = (sch, s) := by
  have hturn : turn m 0 sch s = none := by rw [turn, h, List.getElem?_nil]
  exact (Runs.done hturn).resumeFrom_eq

/-- A tick that ends does so when somebody is watching. -/
theorem Runs.exists_watched {sch : Scheduler (Numbered κ)} {w : Watched σ φ α}
    (h : Runs m index sch.bare w.state r) :
    ∃ sch' w', Runs m.watched index sch w (sch', w') ∧ r = (sch'.bare, w'.state) := by
  generalize hsch : sch.bare = sch₀ at h
  generalize hs : w.state = s₀ at h
  induction h generalizing sch w with
  | done hturn =>
      subst hsch hs
      rw [turn_watched, Option.map_eq_none_iff] at hturn
      exact ⟨sch, w, .done hturn, rfl⟩
  | more hturn _ ih =>
      subst hsch hs
      rw [turn_watched, Option.map_eq_some_iff] at hturn
      obtain ⟨⟨index', sch', w'⟩, hturn, heq⟩ := hturn
      obtain ⟨rfl, hrest⟩ := Prod.mk.inj heq
      obtain ⟨hsch', hw'⟩ := Prod.mk.inj hrest
      obtain ⟨sch'', w'', hrun, hr⟩ := ih hsch' hw'
      exact ⟨sch'', w'', .more hturn hrun, hr⟩

end

end Scheduler

end Cutscene
