import Cutscene.Proofs.Thread.Relating
import Cutscene.Proofs.Thread.Spawning

/-!
# The last resume of a kept thread

Whoever has had a thread created to be kept waits for it to leave. As long as it is the only one
that is kept, a tick resumes it in one of its turns, as it was found at the beginning of the tick,
and what becomes of it there decides what the tick leaves: the thread, if that resume ends
suspended, and otherwise its context among the retained ones (`Runs.exists_last`). All other turns
of the tick, before and after, leave kept threads and retained contexts as they are (`Runs.quiet`),
whatever threads are created in them.
-/

namespace Cutscene

namespace Scheduler

variable {σ φ α κ : Type} {m : Machine σ φ α κ}

/-- The threads whose contexts are to be retained. -/
def kept (sch : Scheduler κ) : List (Thread κ) := sch.threads.filter (·.keepAlive)

/-- What a thread leaves in the list when it has been resumed. -/
def stays (t : Thread κ) (e : ContextState × κ × σ) : List (Thread κ) :=
  if e.1 = .suspended then [{ t with context := e.2.1 }] else []

theorem filter_stays_of_keepAlive {t : Thread κ} (ht : t.keepAlive = true)
    (e : ContextState × κ × σ) : (stays t e).filter (·.keepAlive) = stays t e := by
  unfold stays
  split
  · exact List.filter_cons_of_pos ht
  · rfl

theorem filter_stays_of_not_keepAlive {t : Thread κ} (ht : ¬t.keepAlive = true)
    (e : ContextState × κ × σ) : (stays t e).filter (·.keepAlive) = [] := by
  unfold stays
  split
  · exact List.filter_cons_of_neg ht
  · rfl

/-- Threads that scripts have asked for. -/
structure Fresh (nextId : Nat) (made : List (Thread κ)) : Prop where
  ids : made.map (·.id) = List.range' nextId made.length
  keepAlive : ∀ t ∈ made, t.keepAlive = false

theorem Fresh.le_id {nextId : Nat} {made : List (Thread κ)} (h : Fresh nextId made)
    {t : Thread κ} (ht : t ∈ made) : nextId ≤ t.id := by
  have hid := List.mem_map_of_mem (f := (·.id)) ht
  rw [h.ids, List.mem_range'_1] at hid
  exact hid.1

theorem Fresh.kept_eq_nil {nextId : Nat} {made : List (Thread κ)} (h : Fresh nextId made) :
    made.filter (·.keepAlive) = [] :=
  List.filter_eq_nil_iff.2 fun t ht => by simp [h.keepAlive t ht]

/-! ## One turn -/

theorem exists_createThread_eq (m : Machine σ φ α κ) (function : φ) (args : Option α)
    (sch : Scheduler κ) (s : σ) :
    ∃ made, Fresh sch.nextId made ∧ (createThread m function args false sch s).2.1 =
      { sch with threads := sch.threads ++ made, nextId := sch.nextId + made.length } := by
  unfold createThread
  split
  · exact ⟨[], ⟨rfl, by simp⟩, by simp⟩
  · exact ⟨[_], ⟨rfl, by simp⟩, rfl⟩

theorem exists_createSpawned_eq (m : Machine σ φ α κ) (requests : List (SpawnRequest φ α))
    (sch : Scheduler κ) (s : σ) :
    ∃ made, Fresh sch.nextId made ∧ (createSpawned m requests sch s).1 =
      { sch with threads := sch.threads ++ made, nextId := sch.nextId + made.length } := by
  induction requests generalizing sch s with
  | nil => exact ⟨[], ⟨rfl, by simp⟩, by simp [createSpawned]⟩
  | cons r requests ih =>
      obtain ⟨first, hfirst, heq⟩ := exists_createThread_eq m r.function r.args sch s
      have hspawned : (createSpawned m (r :: requests) sch s).1 = (createSpawned m requests
        (createThread m r.function r.args false sch s).2.1
        (createThread m r.function r.args false sch s).2.2).1 := rfl
      rw [hspawned, heq]
      obtain ⟨rest, hrest, hspawned⟩ := ih
        { sch with threads := sch.threads ++ first, nextId := sch.nextId + first.length }
        (createThread m r.function r.args false sch s).2.2
      refine ⟨first ++ rest, ⟨?_, ?_⟩, ?_⟩
      · rw [List.map_append, hfirst.ids, hrest.ids, List.length_append, List.range'_append_1]
      · intro t ht
        exact (List.mem_append.1 ht).elim (hfirst.keepAlive t) (hrest.keepAlive t)
      · rw [hspawned]
        simp only [List.append_assoc, List.length_append, Nat.add_assoc]

theorem retire_eq (m : Machine σ φ α κ) (t : Thread κ) (state : ContextState) (sch : Scheduler κ)
    (s : σ) : (retire m t state sch s).1 =
      { sch with
        retained := if t.keepAlive = true then sch.retained.insert t.id t.context
          else sch.retained } := by
  unfold retire
  dsimp only
  cases t.keepAlive <;> rfl

/-- A turn resumes the thread at its position, which stays there or leaves, and creates threads
behind all others. -/
theorem exists_turn_eq {index : Nat} {sch : Scheduler κ} {t : Thread κ}
    (ht : sch.threads[index]? = some t) (s : σ) :
    let e := m.resume t.context (sch.watchdog.arm (m.now s)) s
    ∃ made s', Fresh sch.nextId made ∧ turn m index sch s = some (index + (stays t e).length,
      { threads := sch.threads.take index ++ (stays t e ++ (sch.threads.drop (index + 1) ++ made))
        retained :=
          if e.1 ≠ .suspended ∧ t.keepAlive = true then sch.retained.insert t.id e.2.1
          else sch.retained
        nextId := sch.nextId + made.length
        watchdog := sch.watchdog }, s') := by
  intro e
  obtain ⟨hlt, -⟩ := List.getElem?_eq_some_iff.1 ht
  let r := resume m sch.watchdog t s
  let c := createSpawned m r.2.2.1 (sch.putAt index r.2.1) r.2.2.2
  have hturn : turn m index sch s =
      if e.1 = .suspended then some (index + 1, c.1, m.collectStep c.2)
      else
        let q := retire m r.2.1 e.1 (c.1.removeAt index) c.2
        some (index, q.1, m.collectStep q.2) := by
    unfold turn
    rw [ht]
    rfl
  obtain ⟨made, hmade, hcreated⟩ : ∃ made, Fresh sch.nextId made ∧ c.1 = _ :=
    exists_createSpawned_eq m r.2.2.1 (sch.putAt index r.2.1) r.2.2.2
  -- the resumed thread is back in its place when the new ones come to the end of the list
  have hput : (sch.putAt index r.2.1).threads ++ made =
      sch.threads.take index ++ r.2.1 :: (sch.threads.drop (index + 1) ++ made) := by
    simp only [putAt, List.set_eq_take_append_cons_drop, if_pos hlt, List.append_assoc,
      List.cons_append]
  rw [hput] at hcreated
  by_cases hstate : e.1 = .suspended
  · refine ⟨made, m.collectStep c.2, hmade, hturn.trans ?_⟩
    rw [if_pos hstate, hcreated, stays, if_pos hstate, if_neg fun h => h.1 hstate]
    rfl
  · have herase := Visit.eraseIdx_append_cons (sch.threads.take index) r.2.1
      (sch.threads.drop (index + 1) ++ made)
    rw [List.length_take_of_le hlt.le] at herase
    refine ⟨made, m.collectStep (retire m r.2.1 e.1 (c.1.removeAt index) c.2).2, hmade,
      hturn.trans ?_⟩
    rw [if_neg hstate, stays, if_neg hstate]
    dsimp only
    rw [retire_eq, hcreated, removeAt, herase]
    simp only [hstate, ne_eq, not_false_eq_true, true_and]
    rfl

/-- A turn has resumed a thread, with threads created in it. In front of the next position are the
threads in front of this one and the resumed thread, if it stays. -/
structure Turned (t : Thread κ) (e : ContextState × κ × σ) (made : List (Thread κ)) (index : Nat)
    (sch : Scheduler κ) (index' : Nat) (sch' : Scheduler κ) : Prop where
  thread : sch.threads[index]? = some t
  fresh : Fresh sch.nextId made
  behind : sch'.threads.take index' = sch.threads.take index ++ stays t e
  ahead : sch'.threads.drop index' = sch.threads.drop (index + 1) ++ made
  retained : sch'.retained =
    if e.1 ≠ .suspended ∧ t.keepAlive = true then sch.retained.insert t.id e.2.1 else sch.retained
  nextId : sch'.nextId = sch.nextId + made.length
  watchdog : sch'.watchdog = sch.watchdog

theorem exists_turned {index index' : Nat} {sch sch' : Scheduler κ} {s s' : σ}
    (h : turn m index sch s = some (index', sch', s')) :
    ∃ t made, Turned t (m.resume t.context (sch.watchdog.arm (m.now s)) s) made index sch index'
      sch' := by
  obtain ⟨t, ht⟩ := exists_thread_of_turn h
  obtain ⟨made, s₁, hmade, hturn⟩ := exists_turn_eq (m := m) ht s
  obtain ⟨rfl, rfl, -⟩ : _ = index' ∧ _ = sch' ∧ s₁ = s' := by
    simpa only [h, Option.some.injEq, Prod.mk.injEq] using hturn.symm
  obtain ⟨hlt, -⟩ := List.getElem?_eq_some_iff.1 ht
  have hfront : ∀ l : List (Thread κ), (sch.threads.take index ++ l).length = index + l.length := by
    intro l
    rw [List.length_append, List.length_take_of_le hlt.le]
  refine ⟨t, made, ht, hmade, ?_, ?_, rfl, rfl, rfl⟩
  · dsimp only
    rw [← List.append_assoc, List.take_left' (hfront _)]
  · dsimp only
    rw [← List.append_assoc, List.drop_left' (hfront _)]

namespace Turned

variable {t : Thread κ} {e : ContextState × κ × σ} {made : List (Thread κ)} {index index' : Nat}
  {sch sch' : Scheduler κ}

theorem drop_eq_cons (h : Turned t e made index sch index' sch') :
    sch.threads.drop index = t :: sch.threads.drop (index + 1) := by
  obtain ⟨hlt, hget⟩ := List.getElem?_eq_some_iff.1 h.thread
  rw [List.drop_eq_getElem_cons hlt, hget]

/-- Of the threads to be resumed, no other one is kept than before. -/
theorem kept_ahead (h : Turned t e made index sch index' sch') :
    (sch'.threads.drop index').filter (·.keepAlive) =
      (sch.threads.drop (index + 1)).filter (·.keepAlive) := by
  rw [h.ahead, List.filter_append, h.fresh.kept_eq_nil, List.append_nil]

/-- A thread that was not created in the turn was there before. -/
theorem exists_of_mem (h : Turned t e made index sch index' sch') {u : Thread κ}
    (hu : u ∈ sch'.threads) :
    sch.nextId ≤ u.id ∨ ∃ u' ∈ sch.threads, u'.id = u.id ∧ u'.keepAlive = u.keepAlive := by
  rw [← List.take_append_drop index' sch'.threads, h.behind, h.ahead] at hu
  simp only [List.mem_append] at hu
  rcases hu with (hu | hu) | hu | hu
  · exact .inr ⟨u, List.mem_of_mem_take hu, rfl, rfl⟩
  · unfold stays at hu
    split at hu
    · obtain rfl := List.mem_singleton.1 hu
      exact .inr ⟨t, List.mem_of_getElem? h.thread, rfl, rfl⟩
    · cases hu
  · exact .inr ⟨u, List.mem_of_mem_drop hu, rfl, rfl⟩
  · exact .inl (h.fresh.le_id hu)

end Turned

/-! ## A tick -/

section

variable {index : Nat} {sch : Scheduler κ} {s : σ} {r : Scheduler κ × σ}

theorem kept_eq (index : Nat) (sch : Scheduler κ) : sch.kept =
    (sch.threads.take index).filter (·.keepAlive) ++
      (sch.threads.drop index).filter (·.keepAlive) := by
  rw [kept, ← List.filter_append, List.take_append_drop]

/-- Turns that resume no kept thread leave the kept ones and the retained contexts alone. -/
theorem Runs.quiet (h : Runs m index sch s r)
    (hahead : (sch.threads.drop index).filter (·.keepAlive) = []) :
    r.1.kept = sch.kept ∧ r.1.retained = sch.retained := by
  induction h with
  | done => exact ⟨rfl, rfl⟩
  | @more index index' sch sch' s s' r hturn _ ih =>
      obtain ⟨t, made, hturned⟩ := exists_turned hturn
      rw [hturned.drop_eq_cons, List.filter_eq_nil_iff, List.forall_mem_cons,
        ← List.filter_eq_nil_iff] at hahead
      obtain ⟨ht, hrest⟩ := hahead
      have hahead' := hturned.kept_ahead.trans hrest
      obtain ⟨hkept, hretained⟩ := ih hahead'
      refine ⟨?_, ?_⟩
      · rw [hkept, kept_eq index', kept_eq index, hahead', hturned.behind, List.filter_append,
          filter_stays_of_not_keepAlive ht, hturned.drop_eq_cons, List.filter_cons_of_neg ht, hrest,
          List.append_nil]
      · rw [hretained, hturned.retained, if_neg fun h => ht h.2]

/-- A tick resumes the only kept thread once, as it has found it. The thread stays, or its context
is retained as that resume has left it. -/
theorem Runs.exists_last {t : Thread κ} (h : Runs m index sch s r)
    (hbehind : (sch.threads.take index).filter (·.keepAlive) = [])
    (hahead : (sch.threads.drop index).filter (·.keepAlive) = [t]) :
    ∃ n b, turns m n (index, sch, s) = some b ∧ b.2.1.threads[b.1]? = some t ∧
      let e := m.resume t.context (sch.watchdog.arm (m.now b.2.2)) b.2.2
      r.1.kept = stays t e ∧ r.1.retained =
        if e.1 = .suspended then sch.retained else sch.retained.insert t.id e.2.1 := by
  have hkeep : t.keepAlive = true := by
    have hmem : t ∈ (sch.threads.drop index).filter (·.keepAlive) := by simp [hahead]
    exact (List.mem_filter.1 hmem).2
  induction h with
  | @done index sch s hturn =>
      rw [turn_eq_none_iff (c := (index, sch, s))] at hturn
      rw [show sch.threads.drop index = [] from hturn] at hahead
      cases hahead
  | @more index index' sch sch' s s' r hturn hrest ih =>
      obtain ⟨u, made, hturned⟩ := exists_turned hturn
      have hsplit := hahead
      rw [hturned.drop_eq_cons] at hsplit
      cases hu : u.keepAlive with
      | true =>
          -- it is the turn of the kept thread, and the rest of the tick is quiet
          rw [List.filter_cons_of_pos hu] at hsplit
          obtain ⟨rfl, hnone⟩ := List.cons.inj hsplit
          obtain ⟨hkept, hretained⟩ := hrest.quiet (hturned.kept_ahead.trans hnone)
          refine ⟨0, (index, sch, s), rfl, hturned.thread, ?_, ?_⟩
          · rw [hkept, kept_eq index', hturned.kept_ahead, hnone, hturned.behind,
              List.filter_append, hbehind, List.append_nil, List.nil_append,
              filter_stays_of_keepAlive hu]
          · rw [hretained, hturned.retained]
            simp only [hu, ne_eq, and_true, ite_not]
      | false =>
          -- another thread is resumed, and the kept one is still to be, as it was
          have hu' : ¬u.keepAlive = true := by simp [hu]
          rw [List.filter_cons_of_neg hu'] at hsplit
          have hbehind' : (sch'.threads.take index').filter (·.keepAlive) = [] := by
            rw [hturned.behind, List.filter_append, hbehind, List.nil_append,
              filter_stays_of_not_keepAlive hu']
          obtain ⟨n, b, hb, hthread, hkept, hretained⟩ :=
            ih hbehind' (hturned.kept_ahead.trans hsplit)
          rw [hturned.watchdog] at hkept hretained
          rw [hturned.retained.trans (if_neg fun h => hu' h.2)] at hretained
          refine ⟨n + 1, b, ?_, hthread, hkept, hretained⟩
          rw [turns_succ]
          dsimp only
          rw [hturn]
          exact hb

/-- A number that only a kept thread has is not given to another one. -/
theorem Runs.keepAlive_of_id {id : Nat} (h : Runs m index sch s r) (hlt : id < sch.nextId)
    (hkeep : ∀ t ∈ sch.threads, t.id = id → t.keepAlive = true) :
    id < r.1.nextId ∧ ∀ t ∈ r.1.threads, t.id = id → t.keepAlive = true := by
  induction h with
  | done => exact ⟨hlt, hkeep⟩
  | more hturn _ ih =>
      obtain ⟨t, made, hturned⟩ := exists_turned hturn
      refine ih (by rw [hturned.nextId]; exact Nat.lt_add_right _ hlt) fun u hu hid => ?_
      rcases hturned.exists_of_mem hu with hnew | ⟨u', hu', hsame, hkeep'⟩
      · exact absurd hlt (Nat.not_lt.2 (hid ▸ hnew))
      · rw [← hkeep']
        exact hkeep u' hu' (hsame.trans hid)

/-- If only a kept thread may have a number, it is one of those exactly if it is alive. -/
theorem isAlive_iff_mem_kept {id : Nat}
    (hkeep : ∀ t ∈ sch.threads, t.id = id → t.keepAlive = true) :
    sch.isAlive id = true ↔ id ∈ sch.kept.map (·.id) := by
  simp only [isAlive, kept, List.any_eq_true, beq_iff_eq, List.mem_map, List.mem_filter]
  constructor
  · rintro ⟨t, ht, hid⟩
    exact ⟨t, ⟨ht, hkeep t ht hid⟩, hid⟩
  · rintro ⟨t, ⟨ht, -⟩, hid⟩
    exact ⟨t, ht, hid⟩

/-- Of what is retained, nothing is left when all is taken. -/
theorem takeRetained_of_singleton {id : Nat} {c : κ}
    (h : sch.retained = (∅ : Std.ExtTreeMap Nat κ).insert id c) :
    sch.takeRetained id = (some c, { sch with retained := ∅ }) := by
  have herased : ((∅ : Std.ExtTreeMap Nat κ).insert id c).erase id = ∅ := by
    ext k v
    simp only [Std.ExtTreeMap.getElem?_erase, Std.ExtTreeMap.getElem?_insert]
    split <;> simp_all
  rw [takeRetained, h, herased]
  simp

end

end Scheduler

end Cutscene
