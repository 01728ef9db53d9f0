import Mathlib.Data.List.Range
import Cutscene.Proofs.Thread.Watching

/-!
# Visits

In a tick the scheduler goes through a list that changes under its hands: threads leave it, and new
ones are put behind the others. `Visit` is what happens to one thread on the way. `Visit.Leads` says
all that a turn does, and `Round` what the turns so far add up to: the threads in front of the
position are those visited that stay, and those from the position on are still to be visited.

So a tick that ends has visited the threads that it found, in order, and after them those that were
created on the way, each of them once (`Round.exists_ticked`).
-/

namespace Cutscene

variable {σ φ α κ : Type}

/-- A thread that a script has asked for, and the one that was created, if one was. -/
structure Spawn (φ α κ : Type) where
  request : SpawnRequest φ α
  thread? : Option (Thread (Numbered κ))

namespace Spawn

/-- The context that the machine was asked for. -/
def prepare (x : Spawn φ α κ) : Machine.Request φ α :=
  .prepare x.request.function x.request.args (x.thread?.map (·.context.number))

/-- The threads that were created. -/
def created (xs : List (Spawn φ α κ)) : List (Thread (Numbered κ)) := xs.filterMap (·.thread?)

@[simp] theorem created_append (xs ys : List (Spawn φ α κ)) :
    created (xs ++ ys) = created xs ++ created ys := List.filterMap_append

end Spawn

open Spawn (created)

/-- What the creation of threads does: those created come behind all others, with the next numbers,
and nothing else changes. -/
structure Creates (xs : List (Spawn φ α κ)) (sch : Scheduler (Numbered κ)) (w : Watched σ φ α)
    (sch' : Scheduler (Numbered κ)) (w' : Watched σ φ α) : Prop where
  scheduler : sch' =
    { sch with threads := sch.threads ++ created xs, nextId := sch.nextId + (created xs).length }
  requests : w'.requests = w.requests ++ xs.map Spawn.prepare
  prepared : w'.prepared = w.prepared + (created xs).length
  ids : (created xs).map (·.id) = List.range' sch.nextId (created xs).length
  numbers : (created xs).map (·.context.number) = List.range' w.prepared (created xs).length

namespace Creates

variable {xs ys : List (Spawn φ α κ)} {sch sch' sch'' : Scheduler (Numbered κ)}
  {w w' w'' : Watched σ φ α}

theorem nil (sch : Scheduler (Numbered κ)) (w : Watched σ φ α) :
    Creates ([] : List (Spawn φ α κ)) sch w sch w where
  scheduler := by simp [created]
  requests := by simp
  prepared := rfl
  ids := rfl
  numbers := rfl

theorem trans (h : Creates xs sch w sch' w') (h' : Creates ys sch' w' sch'' w'') :
    Creates (xs ++ ys) sch w sch'' w'' where
  scheduler := by
    rw [h'.scheduler, h.scheduler]
    simp [Nat.add_assoc]
  requests := by rw [h'.requests, h.requests, List.map_append, List.append_assoc]
  prepared := by
    rw [h'.prepared, h.prepared, Spawn.created_append, List.length_append, Nat.add_assoc]
  ids := by
    have hids := h'.ids
    rw [h.scheduler] at hids
    rw [Spawn.created_append, List.map_append, h.ids, hids, List.length_append,
      List.range'_append_1]
  numbers := by
    have hnumbers := h'.numbers
    rw [h.prepared] at hnumbers
    rw [Spawn.created_append, List.map_append, h.numbers, hnumbers, List.length_append,
      List.range'_append_1]

end Creates

namespace Scheduler

variable (m : Machine σ φ α κ)

/-- Whether or not a thread can be created, the scheduler does what is asked and nothing else. -/
theorem exists_creates_createThread (function : φ) (args : Option α) (keepAlive : Bool)
    (sch : Scheduler (Numbered κ)) (w : Watched σ φ α) :
    let r := createThread m.watched function args keepAlive sch w
    ∃ x : Spawn φ α κ, x.request = ⟨function, args⟩ ∧ Creates [x] sch w r.2.1 r.2.2 ∧
      r.1 = x.thread?.map (·.id) ∧ ∀ t ∈ x.thread?, t.keepAlive = keepAlive := by
  rcases h : m.prepare function args w.state with ⟨e | c, s⟩
  · refine ⟨⟨⟨function, args⟩, none⟩, rfl, ?_⟩
    simp only [createThread, Machine.watched, h]
    refine ⟨⟨?_, rfl, rfl, rfl, rfl⟩, rfl, by simp⟩
    simp [created]
  · refine ⟨⟨⟨function, args⟩, some ⟨sch.nextId, m.label c, ⟨w.prepared, c⟩, keepAlive⟩⟩, rfl, ?_⟩
    simp only [createThread, Machine.watched, h]
    exact ⟨⟨rfl, rfl, rfl, rfl, rfl⟩, rfl, by simp⟩

/-- Threads are created in the order in which they are asked for. -/
theorem exists_creates_createSpawned (requests : List (SpawnRequest φ α))
    (sch : Scheduler (Numbered κ)) (w : Watched σ φ α) :
    let r := createSpawned m.watched requests sch w
    ∃ xs : List (Spawn φ α κ), xs.map (·.request) = requests ∧ Creates xs sch w r.1 r.2 ∧
      ∀ t ∈ created xs, t.keepAlive = false := by
  induction requests generalizing sch w with
  | nil => exact ⟨[], rfl, .nil sch w, by simp [created]⟩
  | cons request requests ih =>
      obtain ⟨x, hx, hcreates, -, hkeep⟩ :=
        exists_creates_createThread m request.function request.args false sch w
      obtain ⟨xs, hxs, hrest, hkeeps⟩ := ih
        (createThread m.watched request.function request.args false sch w).2.1
        (createThread m.watched request.function request.args false sch w).2.2
      refine ⟨x :: xs, by rw [List.map_cons, hx, hxs], hcreates.trans hrest, ?_⟩
      intro t ht
      rw [← List.singleton_append, Spawn.created_append] at ht
      rcases List.mem_append.1 ht with ht | ht
      · exact hkeep t (by simpa [created] using ht)
      · exact hkeeps t ht

end Scheduler

/-! ## One visit -/

/-- What happens to one thread in a tick. -/
structure Visit (φ α κ : Type) where
  /-- The thread before it is resumed. -/
  thread : Thread (Numbered κ)
  /-- The time at the start of the resume. -/
  now : Nat
  deadline : Deadline
  /-- How the resume has ended. -/
  state : ContextState
  /-- The context after the resume. -/
  context : κ
  /-- What scripts have asked for, in order. -/
  spawns : List (Spawn φ α κ)

namespace Visit

/-- The thread after it has been resumed. -/
def resumed (v : Visit φ α κ) : Thread (Numbered κ) :=
  { v.thread with context := ⟨v.thread.context.number, v.context⟩ }

/-- Whether the thread stays alive. -/
def stays (v : Visit φ α κ) : Bool := v.state = .suspended

/-- The thread after the visit, if it stays. -/
def stay? (v : Visit φ α κ) : Option (Thread (Numbered κ)) :=
  if v.stays then some v.resumed else none

theorem length_filterMap_stay? (vs : List (Visit φ α κ)) :
    (vs.filterMap stay?).length = vs.countP stays := by
  induction vs with
  | nil => rfl
  | cons v vs ih => cases hstays : v.stays <;> simp [stay?, hstays, ih]

/-- The threads created on the visit. -/
def created (v : Visit φ α κ) : List (Thread (Numbered κ)) := Spawn.created v.spawns

/-- The context that goes back to the machine, if the thread leaves and its context is not kept. -/
def leaving (v : Visit φ α κ) : List Nat :=
  if v.stays || v.thread.keepAlive then [] else [v.thread.context.number]

/-- What the machine is asked for when the thread leaves. -/
def farewell (v : Visit φ α κ) : List (Machine.Request φ α) := v.leaving.map .recycle

/-- All that the machine is asked for on the visit, in order. -/
def requests (v : Visit φ α κ) : List (Machine.Request φ α) :=
  .resume v.thread.context.number v.now v.deadline v.state ::
    .takeSpawned (v.spawns.map (·.request)) ::
      (v.spawns.map Spawn.prepare ++ v.farewell ++ [.collectStep])

/-- The beginning of a turn: the thread at the position has been resumed, and what scripts have
asked for has been created. -/
structure Begins (v : Visit φ α κ) (index : Nat) (sch : Scheduler (Numbered κ)) (w : Watched σ φ α)
    (sch' : Scheduler (Numbered κ)) (w' : Watched σ φ α) : Prop where
  thread : sch.threads[index]? = some v.thread
  deadline : v.deadline = sch.watchdog.arm v.now
  scheduler : sch' =
    { sch with
      threads := sch.threads.take index ++ v.resumed :: (sch.threads.drop (index + 1) ++ v.created)
      nextId := sch.nextId + v.created.length }
  requests : w'.requests = w.requests ++ .resume v.thread.context.number v.now v.deadline v.state ::
    .takeSpawned (v.spawns.map (·.request)) :: v.spawns.map Spawn.prepare
  prepared : w'.prepared = w.prepared + v.created.length
  ids : v.created.map (·.id) = List.range' sch.nextId v.created.length
  numbers : v.created.map (·.context.number) = List.range' w.prepared v.created.length
  keepAlive : ∀ t ∈ v.created, t.keepAlive = false

/-- A whole turn: the thread that has been resumed stays where it is or leaves. -/
structure Leads (v : Visit φ α κ) (index : Nat) (sch : Scheduler (Numbered κ)) (w : Watched σ φ α)
    (sch' : Scheduler (Numbered κ)) (w' : Watched σ φ α) : Prop where
  thread : sch.threads[index]? = some v.thread
  deadline : v.deadline = sch.watchdog.arm v.now
  scheduler : sch' =
    { sch with
      threads :=
        sch.threads.take index ++ (v.stay?.toList ++ (sch.threads.drop (index + 1) ++ v.created))
      retained := if v.stays || !v.thread.keepAlive then sch.retained
        else sch.retained.insert v.thread.id v.resumed.context
      nextId := sch.nextId + v.created.length }
  requests : w'.requests = w.requests ++ v.requests
  prepared : w'.prepared = w.prepared + v.created.length
  ids : v.created.map (·.id) = List.range' sch.nextId v.created.length
  numbers : v.created.map (·.context.number) = List.range' w.prepared v.created.length
  keepAlive : ∀ t ∈ v.created, t.keepAlive = false

/-- What is left of a list without the element behind a first part. -/
theorem eraseIdx_append_cons {β : Type} (l₁ : List β) (a : β) (l₂ : List β) :
    (l₁ ++ a :: l₂).eraseIdx l₁.length = l₁ ++ l₂ := by
  rw [List.eraseIdx_append_of_length_le le_rfl, Nat.sub_self, List.eraseIdx_cons_zero]

/-- After the beginning, the thread may have to leave, and the machine is asked to collect. -/
theorem Begins.leads {v : Visit φ α κ} {index : Nat} {sch sch' sch'' : Scheduler (Numbered κ)}
    {w w' w'' : Watched σ φ α} (hv : v.Begins index sch w sch' w')
    (hscheduler : sch'' =
      if v.stays then sch'
      else if v.thread.keepAlive then
        { sch'.removeAt index with retained := sch'.retained.insert v.thread.id v.resumed.context }
      else sch'.removeAt index)
    (hrequests : w''.requests = w'.requests ++ v.farewell ++ [.collectStep])
    (hprepared : w''.prepared = w'.prepared) : v.Leads index sch w sch'' w'' where
  thread := hv.thread
  deadline := hv.deadline
  scheduler := by
    obtain ⟨hlt, -⟩ := List.getElem?_eq_some_iff.1 hv.thread
    have herase := eraseIdx_append_cons (sch.threads.take index) v.resumed
      (sch.threads.drop (index + 1) ++ v.created)
    rw [List.length_take_of_le hlt.le] at herase
    rw [hscheduler, hv.scheduler]
    cases hstays : v.stays with
    | true => simp [stay?, hstays]
    | false => cases hkeep : v.thread.keepAlive <;> simp [stay?, hstays, Scheduler.removeAt, herase]
  requests := by
    rw [hrequests, hv.requests]
    simp [Visit.requests]
  prepared := hprepared.trans hv.prepared
  ids := hv.ids
  numbers := hv.numbers
  keepAlive := hv.keepAlive

end Visit

namespace Scheduler

variable (m : Machine σ φ α κ) {index : Nat} {sch : Scheduler (Numbered κ)}
  {t : Thread (Numbered κ)}

/-- A resume changes the context of the thread, and the machine is asked what has been spawned. -/
theorem exists_resume_eq (watchdog : Watchdog) (t : Thread (Numbered κ)) (w : Watched σ φ α) :
    ∃ state context requests s, resume m.watched watchdog t w =
      (state, { t with context := ⟨t.context.number, context⟩ }, requests,
        ⟨s, w.requests ++ [.resume t.context.number (m.now w.state)
          (watchdog.arm (m.now w.state)) state, .takeSpawned requests], w.prepared⟩) := by
  rcases hresume : m.resume t.context.context (watchdog.arm (m.now w.state)) w.state with
    ⟨state, context, s⟩
  let after := m.takeSpawned (m.note ⟨.trace, s!"script thread #{t.id} -> {state.label}"⟩ s)
  refine ⟨state, context, after.1, after.2, ?_⟩
  simp only [resume, Machine.watched, Watched.write, hresume, List.append_assoc]
  rfl

/-- A thread that is retired goes to the retained ones or back to the machine. -/
theorem exists_retire_eq (t : Thread (Numbered κ)) (state : ContextState)
    (sch : Scheduler (Numbered κ)) (w : Watched σ φ α) :
    ∃ s, retire m.watched t state sch w =
      if t.keepAlive
      then ({ sch with retained := sch.retained.insert t.id t.context }, { w with state := s })
      else (sch, w.write (.recycle t.context.number) s) := by
  unfold retire
  dsimp only
  split
  · split
    · exact ⟨_, rfl⟩
    · exact ⟨_, rfl⟩
  · split
    · exact ⟨_, rfl⟩
    · exact ⟨_, rfl⟩

/-- A turn begins with a resume and ends with what becomes of the thread. -/
theorem exists_begins (h : sch.threads[index]? = some t) (w : Watched σ φ α) :
    ∃ (v : Visit φ α κ) (sch' : Scheduler (Numbered κ)) (w' : Watched σ φ α),
      v.Begins index sch w sch' w' ∧
      turn m.watched index sch w = some (
        if v.stays then (index + 1, sch', m.watched.collectStep w')
        else
          let r := retire m.watched v.resumed v.state (sch'.removeAt index) w'
          (index, r.1, m.watched.collectStep r.2)) := by
  obtain ⟨hlt, -⟩ := List.getElem?_eq_some_iff.1 h
  obtain ⟨state, context, requests, s, hresume⟩ := exists_resume_eq m sch.watchdog t w
  obtain ⟨xs, rfl, hcreates, hkeep⟩ := exists_creates_createSpawned m requests
    (sch.putAt index { t with context := ⟨t.context.number, context⟩ })
    ⟨s, w.requests ++ [.resume t.context.number (m.now w.state)
      (sch.watchdog.arm (m.now w.state)) state, .takeSpawned requests], w.prepared⟩
  -- from here on, what matters of the creation is what `Creates` says
  generalize hcreated : createSpawned m.watched _ _ _ = r at hcreates
  obtain ⟨sch', w'⟩ := r
  simp only at hcreates
  refine ⟨⟨t, m.now w.state, sch.watchdog.arm (m.now w.state), state, context, xs⟩, sch', w',
    ⟨h, rfl, ?_, ?_, hcreates.prepared, hcreates.ids, hcreates.numbers, hkeep⟩, ?_⟩
  · rw [hcreates.scheduler]
    simp only [putAt, List.set_eq_take_append_cons_drop, if_pos hlt, List.append_assoc,
      List.cons_append]
    rfl
  · rw [hcreates.requests]
    simp
  · simp only [turn, h, hresume, hcreated]
    by_cases hstate : state = .suspended
    · simp [hstate, Visit.stays]
    · simp [hstate, Visit.stays, Visit.resumed]

/-- A turn visits the thread at its position. -/
theorem exists_visit (h : sch.threads[index]? = some t) (w : Watched σ φ α) :
    ∃ (v : Visit φ α κ) (sch' : Scheduler (Numbered κ)) (w' : Watched σ φ α),
      turn m.watched index sch w = some (index + v.stay?.toList.length, sch', w') ∧
        v.Leads index sch w sch' w' := by
  obtain ⟨v, sch', w', hv, hturn⟩ := exists_begins m h w
  cases hstays : v.stays with
  | true =>
      rw [hstays, if_pos rfl] at hturn
      refine ⟨v, sch', m.watched.collectStep w', ?_, hv.leads ?_ ?_ rfl⟩
      · rw [hturn, Visit.stay?, hstays]
        rfl
      · rw [hstays, if_pos rfl]
      · simp [Machine.watched, Watched.write, Visit.farewell, Visit.leaving, hstays]
  | false =>
      obtain ⟨s, hretire⟩ := exists_retire_eq m v.resumed v.state (sch'.removeAt index) w'
      rw [hstays, if_neg Bool.false_ne_true, hretire] at hturn
      have hindex : index + v.stay?.toList.length = index := by simp [Visit.stay?, hstays]
      refine ⟨v, ?_⟩
      rw [hindex]
      cases hkeep : v.thread.keepAlive with
      | true =>
          have hkeep' : v.resumed.keepAlive = true := hkeep
          rw [if_pos hkeep'] at hturn
          refine ⟨_, _, hturn, hv.leads ?_ ?_ rfl⟩
          · simp only [hstays, hkeep, Bool.false_eq_true, if_true, if_false]
            rfl
          · simp [Machine.watched, Watched.write, Visit.farewell, Visit.leaving, hkeep]
      | false =>
          have hkeep' : ¬v.resumed.keepAlive = true := by
            rw [Visit.resumed, hkeep]
            exact Bool.false_ne_true
          rw [if_neg hkeep'] at hturn
          refine ⟨_, _, hturn, hv.leads ?_ ?_ rfl⟩
          · simp [hstays, hkeep]
          · simp [Machine.watched, Watched.write, Visit.farewell, Visit.leaving, Visit.resumed,
              hstays, hkeep]

/-- A turn goes on behind a thread whose resume has ended suspended. Any other thread leaves, and
the turn goes on at its position. -/
theorem fst_of_turn {m : Machine σ φ α κ} {sch : Scheduler κ} {s : σ} {t : Thread κ}
    {next : Nat × Scheduler κ × σ}
    (ht : sch.threads[index]? = some t) (h : turn m index sch s = some next) :
    next.1 = if (m.resume t.context (sch.watchdog.arm (m.now s)) s).1 = .suspended
      then index + 1 else index := by
  unfold turn at h
  rw [ht] at h
  dsimp only [resume] at h
  split at h
  · rename_i hstate
    rw [if_pos hstate, ← Option.some.inj h]
  · rename_i hstate
    rw [if_neg hstate, ← Option.some.inj h]

end Scheduler

/-! ## The visits of a tick -/

/-- What visits add up to, wherever the scheduler has come to. -/
structure Visits (vs : List (Visit φ α κ)) (sch : Scheduler (Numbered κ)) (w : Watched σ φ α)
    (sch' : Scheduler (Numbered κ)) (w' : Watched σ φ α) : Prop where
  watchdog : sch'.watchdog = sch.watchdog
  deadline : ∀ v ∈ vs, v.deadline = sch.watchdog.arm v.now
  requests : w'.requests = w.requests ++ vs.flatMap Visit.requests
  nextId : sch'.nextId = sch.nextId + (vs.flatMap Visit.created).length
  prepared : w'.prepared = w.prepared + (vs.flatMap Visit.created).length
  ids : (vs.flatMap Visit.created).map (·.id) =
    List.range' sch.nextId (vs.flatMap Visit.created).length
  numbers : (vs.flatMap Visit.created).map (·.context.number) =
    List.range' w.prepared (vs.flatMap Visit.created).length
  keepAlive : ∀ t ∈ vs.flatMap Visit.created, t.keepAlive = false

/-- A tick on its way: the threads in front of the position are those that stay, and those from the
position on are to be visited after those visited already. -/
structure Round (vs : List (Visit φ α κ)) (sch : Scheduler (Numbered κ)) (w : Watched σ φ α)
    (index : Nat) (sch' : Scheduler (Numbered κ)) (w' : Watched σ φ α) : Prop
    extends Visits vs sch w sch' w' where
  behind : sch'.threads.take index = vs.filterMap Visit.stay?
  ahead : vs.map (·.thread) ++ sch'.threads.drop index = sch.threads ++ vs.flatMap Visit.created
  index_le : index ≤ sch'.threads.length

/-- A whole tick: it visits the threads that it finds and then those created on its visits, and it
leaves those that stay. -/
structure Ticked (vs : List (Visit φ α κ)) (sch : Scheduler (Numbered κ)) (w : Watched σ φ α)
    (sch' : Scheduler (Numbered κ)) (w' : Watched σ φ α) : Prop
    extends Visits vs sch w sch' w' where
  visited : vs.map (·.thread) = sch.threads ++ vs.flatMap Visit.created
  left : sch'.threads = vs.filterMap Visit.stay?

namespace Visits

variable {vs : List (Visit φ α κ)} {v : Visit φ α κ} {index : Nat}
  {sch sch' sch'' : Scheduler (Numbered κ)} {w w' w'' : Watched σ φ α}

theorem nil (sch : Scheduler (Numbered κ)) (w : Watched σ φ α) :
    Visits ([] : List (Visit φ α κ)) sch w sch w := by
  constructor <;> simp

/-- One more visit. -/
theorem step (h : Visits vs sch w sch' w') (hv : v.Leads index sch' w' sch'' w'') :
    Visits (vs ++ [v]) sch w sch'' w'' where
  watchdog := by rw [hv.scheduler, ← h.watchdog]
  deadline := by
    intro u hu
    rcases List.mem_append.1 hu with hu | hu
    · exact h.deadline u hu
    · obtain rfl := List.mem_singleton.1 hu
      rw [hv.deadline, h.watchdog]
  requests := by rw [hv.requests, h.requests]; simp
  nextId := by rw [hv.scheduler]; simp [h.nextId, Nat.add_assoc]
  prepared := by rw [hv.prepared, h.prepared]; simp [Nat.add_assoc]
  ids := by
    have hids := hv.ids
    rw [h.nextId] at hids
    simp [h.ids, hids, List.range'_append_1]
  numbers := by
    have hnumbers := hv.numbers
    rw [h.prepared] at hnumbers
    simp [h.numbers, hnumbers, List.range'_append_1]
  keepAlive := by
    intro t ht
    rw [List.flatMap_append, List.flatMap_singleton] at ht
    rcases List.mem_append.1 ht with ht | ht
    · exact h.keepAlive t ht
    · exact hv.keepAlive t ht

end Visits

/-- If the threads are numbered from the front, those visited are so numbered, too. -/
theorem Ticked.numbers_eq_range {vs : List (Visit φ α κ)} {sch sch' : Scheduler (Numbered κ)}
    {w w' : Watched σ φ α} (h : Ticked vs sch w sch' w')
    (hnumbers : sch.threads.map (·.context.number) = List.range w.prepared) :
    vs.map (·.thread.context.number) = List.range vs.length := by
  have hvisited : vs.map (·.thread.context.number) =
      List.range (w.prepared + (vs.flatMap Visit.created).length) := by
    have hmap := congrArg (List.map (·.context.number)) h.visited
    rw [List.map_map, List.map_append, hnumbers, h.numbers] at hmap
    rwa [List.range_eq_range', ← List.range'_append_1, Nat.zero_add, ← List.range_eq_range']
  have hlength := congrArg List.length hvisited
  rw [List.length_map, List.length_range] at hlength
  rw [hvisited, hlength]

namespace Round

variable {vs : List (Visit φ α κ)} {v : Visit φ α κ} {index : Nat}
  {sch sch' sch'' : Scheduler (Numbered κ)} {w w' w'' : Watched σ φ α}

theorem nil (sch : Scheduler (Numbered κ)) (w : Watched σ φ α) :
    Round ([] : List (Visit φ α κ)) sch w 0 sch w where
  toVisits := .nil sch w
  behind := rfl
  ahead := by simp
  index_le := Nat.zero_le _

/-- The thread at the position is visited next. If it stays, it is now in front of the position. -/
theorem step (h : Round vs sch w index sch' w') (hv : v.Leads index sch' w' sch'' w'') :
    Round (vs ++ [v]) sch w (index + v.stay?.toList.length) sch'' w'' := by
  obtain ⟨hlt, hget⟩ := List.getElem?_eq_some_iff.1 hv.thread
  have hthreads : sch''.threads = vs.filterMap Visit.stay? ++
      (v.stay?.toList ++ (sch'.threads.drop (index + 1) ++ v.created)) := by
    rw [hv.scheduler, ← h.behind]
  have hindex : (vs.filterMap Visit.stay?).length = index := by
    rw [← h.behind, List.length_take_of_le h.index_le]
  -- the threads that stay are a first part of the list, and its length is the new position
  have hsplit : sch''.threads = (vs ++ [v]).filterMap Visit.stay? ++
      (sch'.threads.drop (index + 1) ++ v.created) := by
    rw [hthreads, List.filterMap_append, List.append_assoc]
    cases hstay : v.stay? <;> simp [hstay]
  have hlength : ((vs ++ [v]).filterMap Visit.stay?).length = index + v.stay?.toList.length := by
    rw [List.filterMap_append, List.length_append, hindex]
    cases hstay : v.stay? <;> simp [hstay]
  refine ⟨h.toVisits.step hv, ?_, ?_, ?_⟩
  · rw [hsplit, List.take_left' hlength]
  · have hahead := h.ahead
    rw [List.drop_eq_getElem_cons hlt, hget] at hahead
    rw [hsplit, List.drop_left' hlength, List.map_append, List.flatMap_append, ← List.append_assoc,
      ← List.append_assoc, ← hahead]
    simp
  · rw [hsplit, List.length_append, hlength]
    exact Nat.le_add_right _ _

/-- At the end no thread is left to be visited. -/
theorem ticked (h : Round vs sch w index sch' w') (hend : sch'.threads[index]? = none) :
    Ticked vs sch w sch' w' := by
  have hlength : sch'.threads.length ≤ index := List.getElem?_eq_none_iff.1 hend
  have hbehind := h.behind
  have hahead := h.ahead
  rw [List.take_of_length_le hlength] at hbehind
  rw [List.drop_of_length_le hlength, List.append_nil] at hahead
  exact ⟨h.toVisits, hahead, hbehind⟩

/-- The turns of a tick go on with the round that they are in. -/
theorem exists_ticked {m : Machine σ φ α κ} {r : Scheduler (Numbered κ) × Watched σ φ α}
    (h : Scheduler.Runs m.watched index sch' w' r) (hround : Round vs sch w index sch' w') :
    ∃ us : List (Visit φ α κ), Ticked us sch w r.1 r.2 := by
  induction h generalizing vs with
  | @done index sch' w' hturn =>
      refine ⟨vs, hround.ticked ?_⟩
      cases hget : sch'.threads[index]? with
      | none => rfl
      | some t =>
          obtain ⟨v, sch'', w'', hsome, -⟩ := Scheduler.exists_visit m hget w'
          rw [hturn] at hsome
          exact absurd hsome (by simp)
  | @more index index' sch' sch'' w' w'' r hturn _ ih =>
      cases hget : sch'.threads[index]? with
      | none => exact absurd hturn (by simp [Scheduler.turn, hget])
      | some t =>
          obtain ⟨v, sch₁, w₁, hsome, hv⟩ := Scheduler.exists_visit m hget w'
          rw [hturn] at hsome
          obtain ⟨rfl, hrest⟩ := Prod.mk.inj (Option.some.inj hsome)
          obtain ⟨rfl, rfl⟩ := Prod.mk.inj hrest
          exact ih (hround.step hv)

end Round

end Cutscene
