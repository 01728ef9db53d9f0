import Cutscene.Proofs.Thread.Custody

/-!
# Kept contexts

A thread may be created to be kept: when it leaves, its context is to stay until its creator takes
it. A thread that leaves in a tick is treated so, however its last resume has ended: its context is
retained until it is taken (`Retains`), and the context of any other thread goes back to the machine
(`GivesUp`). The end of all threads makes no such difference. It gives up every context, kept or not
(`kept_unless_aborted`), so that the creator of a kept thread finds nothing
(`abortAll_gives_up_kept`).

A thread whose resume does not end suspended is gone after the turn, kept or not: it does not come
back, and its context is not resumed again (`gone_of_turn`).
-/

namespace Cutscene

namespace Custody

open Machine (Request)

variable {σ φ α κ : Type}

section

variable (m : Machine σ φ α κ) (o : Custody (Watched σ φ α) (Numbered κ))

/-- What there is after more actions. -/
def later (more : List (Action σ φ α)) : Custody (Watched σ φ α) (Numbered κ) :=
  (more.map Action.watched).foldl (act m.watched) o

/-- The context of a thread that has left is retained, and whoever takes it next gets it. -/
def Retains (t : Thread (Numbered κ)) : Prop :=
  ∃ c, c.number = t.context.number ∧ ∀ more : List (Action σ φ α), .take t.id ∉ more →
    ((later m o more).scheduler.takeRetained t.id).1 = some c

/-- The context of a thread that has left has gone back to the machine, and nobody ever gets it. -/
def GivesUp (t : Thread (Numbered κ)) : Prop :=
  t.context.number ∈ Request.recycled o.state.requests ∧
    ∀ more : List (Action σ φ α), ((later m o more).scheduler.takeRetained t.id).1 = none

/-- A thread is gone: whatever is done, it is not there any more, and its context is not resumed. -/
def Gone (t : Thread (Numbered κ)) : Prop :=
  ∀ more : List (Action σ φ α),
    let o' := later m o more
    t.id ∉ o'.scheduler.threads.map (·.id) ∧
      ∀ now deadline state, .resume t.context.number now deadline state ∉
        o'.state.requests.drop o.state.requests.length

end

variable {m : Machine σ φ α κ} {o : Custody (Watched σ φ α) (Numbered κ)}

/-- What every action preserves holds after any more of them. -/
theorem later_invariant {I : Custody (Watched σ φ α) (Numbered κ) → Prop} (ho : Held o) (hI : I o)
    (more : List (Action σ φ α))
    (hstep : ∀ o, Held o → I o → ∀ a ∈ more, I (act m.watched o a.watched)) :
    I (later m o more) := by
  induction more generalizing o with
  | nil => exact hI
  | cons a more ih =>
      obtain ⟨new, created, hact⟩ := exists_step m ho a
      exact ih (ho.step hact) (hstep o ho hI a List.mem_cons_self)
        fun o ho hI a ha => hstep o ho hI a (List.mem_cons_of_mem _ ha)

theorem later_turn {index index' : Nat} {sch : Scheduler (Numbered κ)} {w : Watched σ φ α}
    (hturn : Scheduler.turn m.watched index o.scheduler o.state = some (index', sch, w)) :
    later m o [.turn index] = { o with scheduler := sch, state := w } := by
  simp only [later, List.map_cons, List.map_nil, List.foldl_cons, List.foldl_nil, Action.watched,
    act, hturn]

/-! ## Threads keep what they were created with -/

/-- A thread after a turn has been there before, or has a new number and is not kept. -/
theorem exists_of_mem_visit {v : Visit φ α κ} {index : Nat} {sch : Scheduler (Numbered κ)}
    {w : Watched σ φ α} (h : v.Leads index o.scheduler o.state sch w) {t' : Thread (Numbered κ)}
    (ht' : t' ∈ sch.threads) :
    (∃ t ∈ o.scheduler.threads, t.id = t'.id ∧ t.keepAlive = t'.keepAlive) ∨
      o.scheduler.nextId ≤ t'.id ∧ t'.keepAlive = false := by
  rw [h.scheduler] at ht'
  rcases List.mem_append.1 ht' with ht' | ht'
  · exact .inl ⟨t', List.mem_of_mem_take ht', rfl, rfl⟩
  · rcases List.mem_append.1 ht' with ht' | ht'
    · have hresumed : t' = v.resumed := by
        unfold Visit.stay? at ht'
        split at ht'
        · simpa using ht'
        · simp at ht'
      exact .inl ⟨v.thread, List.mem_of_getElem? h.thread, by rw [hresumed]; rfl,
        by rw [hresumed]; rfl⟩
    · rcases List.mem_append.1 ht' with ht' | ht'
      · exact .inl ⟨t', List.mem_of_mem_drop ht', rfl, rfl⟩
      · have hid := List.mem_map_of_mem (f := (·.id)) ht'
        rw [h.ids, List.mem_range'_1] at hid
        exact .inr ⟨hid.1, h.keepAlive t' ht'⟩

/-- A thread after any action has been there before, or has a new number. -/
theorem exists_of_mem_act (a : Action σ φ α) {t' : Thread (Numbered κ)}
    (ht' : t' ∈ (act m.watched o a.watched).scheduler.threads) :
    (∃ t ∈ o.scheduler.threads, t.id = t'.id ∧ t.keepAlive = t'.keepAlive) ∨
      o.scheduler.nextId ≤ t'.id := by
  cases a with
  | create function args keepAlive =>
      obtain ⟨x, -, hcreates, -⟩ :=
        Scheduler.exists_creates_createThread m function args keepAlive o.scheduler o.state
      simp only [Action.watched, act, hcreates.scheduler, List.mem_append] at ht'
      rcases ht' with ht' | ht'
      · exact .inl ⟨t', ht', rfl, rfl⟩
      · have hid := List.mem_map_of_mem (f := (·.id)) ht'
        rw [hcreates.ids, List.mem_range'_1] at hid
        exact .inr hid.1
  | turn index =>
      cases hget : o.scheduler.threads[index]? with
      | none =>
          simp only [Action.watched, act, Scheduler.turn, hget] at ht'
          exact .inl ⟨t', ht', rfl, rfl⟩
      | some t =>
          obtain ⟨v, sch, w, hturn, hv⟩ := Scheduler.exists_visit m hget o.state
          simp only [Action.watched, act, hturn] at ht'
          exact (exists_of_mem_visit hv ht').imp id And.left
  | abortAll => exact absurd ht' List.not_mem_nil
  | take id => exact .inl ⟨t', ht', rfl, rfl⟩
  | elsewhere change => exact .inl ⟨t', ht', rfl, rfl⟩

/-- If the thread with a number that has been given is to be kept or not, this never changes. -/
theorem keepAlive_later (ho : Held o) {id : Nat} {keepAlive : Bool} (hlt : id < o.scheduler.nextId)
    (h : ∀ t ∈ o.scheduler.threads, t.id = id → t.keepAlive = keepAlive)
    (more : List (Action σ φ α)) :
    ∀ t ∈ (later m o more).scheduler.threads, t.id = id → t.keepAlive = keepAlive := by
  refine (later_invariant (I := fun o => id < o.scheduler.nextId ∧
    ∀ t ∈ o.scheduler.threads, t.id = id → t.keepAlive = keepAlive) ho ⟨hlt, h⟩ more ?_).2
  rintro o ho ⟨hlt, h⟩ a -
  obtain ⟨new, created, hact⟩ := exists_step m ho a
  refine ⟨by rw [hact.nextId]; exact Nat.lt_add_right _ hlt, ?_⟩
  intro t' ht' hid
  rcases exists_of_mem_act a ht' with ⟨t, ht, hsame, hkeep⟩ | hnew
  · rw [← hkeep]
    exact h t ht (hsame.trans hid)
  · exact absurd hlt (Nat.not_lt.2 (hid ▸ hnew))

/-- A thread that has just been created is kept if that was asked for. -/
theorem keepAlive_of_created (ho : Held o) {function : φ} {args : Option α} {keepAlive : Bool}
    {id : Nat} (hid : (Scheduler.createThread m.watched function args keepAlive o.scheduler
      o.state).1 = some id) (more : List (Action σ φ α)) :
    ∀ t ∈ (later m o (.create function args keepAlive :: more)).scheduler.threads,
      t.id = id → t.keepAlive = keepAlive := by
  obtain ⟨new, created, hact⟩ := exists_step m ho (.create function args keepAlive)
  obtain ⟨x, -, hcreates, hreturned, hkeep⟩ :=
    Scheduler.exists_creates_createThread m function args keepAlive o.scheduler o.state
  obtain ⟨t₀, ht₀, rfl⟩ := Option.map_eq_some_iff.1 (hreturned.symm.trans hid)
  have hcreated : Spawn.created [x] = [t₀] := by simp [Spawn.created, ht₀]
  have hnumber : t₀.id = o.scheduler.nextId := by
    have hids := hcreates.ids
    rw [hcreated] at hids
    simpa using hids
  refine keepAlive_later (ho.step hact) ?_ ?_ more
  · simp only [Action.watched, act, hcreates.scheduler, hcreated, List.length_singleton, hnumber]
    exact Nat.lt_succ_self _
  · intro t ht htid
    simp only [Action.watched, act, hcreates.scheduler, hcreated, List.mem_append,
      List.mem_singleton] at ht
    rcases ht with ht | rfl
    · exact absurd (htid.trans hnumber) (ho.ids_lt t ht).ne
    · exact hkeep t ht₀

/-- A thread that a script has asked for is not kept. -/
theorem keepAlive_of_spawned (ho : Held o) (index : Nat) (more : List (Action σ φ α)) :
    ∀ t ∈ (later m o (.turn index :: more)).scheduler.threads, o.scheduler.nextId ≤ t.id →
      t.id < (later m o [.turn index]).scheduler.nextId → t.keepAlive = false := by
  intro t ht hle hlt
  obtain ⟨new, created, hact⟩ := exists_step m ho (.turn index)
  refine keepAlive_later (ho.step hact) hlt ?_ more t ht rfl
  intro t' ht' hid
  cases hget : o.scheduler.threads[index]? with
  | none =>
      simp only [Action.watched, act, Scheduler.turn, hget] at ht'
      exact absurd (ho.ids_lt t' ht') (Nat.not_lt.2 (hid ▸ hle))
  | some t₀ =>
      obtain ⟨v, sch, w, hturn, hv⟩ := Scheduler.exists_visit m hget o.state
      simp only [Action.watched, act, hturn] at ht'
      rcases exists_of_mem_visit hv ht' with ⟨t'', ht'', hsame, -⟩ | ⟨-, hkeep⟩
      · exact absurd (ho.ids_lt t'' ht'') (Nat.not_lt.2 (hsame.trans hid ▸ hle))
      · exact hkeep

/-! ## Threads that leave -/

/-- A context that is retained stays so until it is taken. -/
theorem retained_act (ho : Held o) {id : Nat} {c : Numbered κ}
    (hget : o.scheduler.retained[id]? = some c) {a : Action σ φ α} (ha : a ≠ .take id) :
    (act m.watched o a.watched).scheduler.retained[id]? = some c := by
  cases a with
  | create function args keepAlive =>
      obtain ⟨x, -, hcreates, -⟩ :=
        Scheduler.exists_creates_createThread m function args keepAlive o.scheduler o.state
      simpa only [Action.watched, act, hcreates.scheduler] using hget
  | turn index =>
      cases hthread : o.scheduler.threads[index]? with
      | none => simpa only [Action.watched, act, Scheduler.turn, hthread] using hget
      | some t =>
          obtain ⟨v, sch, w, hturn, hv⟩ := Scheduler.exists_visit m hthread o.state
          simp only [Action.watched, act, hturn, hv.scheduler]
          split
          · exact hget
          · -- what comes to the retained ones comes under the number of a live thread
            have hne : v.thread.id ≠ id := by
              rintro rfl
              have hmem := Std.ExtTreeMap.mem_iff_isSome_getElem?.2 (by rw [hget]; rfl)
              exact ho.retained_left _ hmem (List.mem_map_of_mem (List.mem_of_getElem? hv.thread))
            rw [Std.ExtTreeMap.getElem?_insert, if_neg (mt Nat.compare_eq_eq.1 hne)]
            exact hget
  | abortAll => exact hget
  | take id' =>
      have hne : id' ≠ id := fun h => ha (h ▸ rfl)
      simp only [Action.watched, act, Scheduler.takeRetained]
      rw [Std.ExtTreeMap.getElem?_erase, if_neg (mt Nat.compare_eq_eq.1 hne)]
      exact hget
  | elsewhere change => exact hget

theorem retains_of_retained (ho : Held o) {t : Thread (Numbered κ)} {c : Numbered κ}
    (hget : o.scheduler.retained[t.id]? = some c) (hnumber : c.number = t.context.number) :
    Retains m o t := by
  refine ⟨c, hnumber, fun more hmore => ?_⟩
  exact later_invariant (I := fun o => o.scheduler.retained[t.id]? = some c) ho hget more
    fun o ho hget a ha => retained_act ho hget fun htake => hmore (htake ▸ ha)

/-- A number whose thread has left and has left nothing to be retained never leads to a context. -/
theorem takeRetained_later (ho : Held o) {id : Nat} (hlt : id < o.scheduler.nextId)
    (hthread : id ∉ o.scheduler.threads.map (·.id)) (hretained : id ∉ o.scheduler.retained)
    (more : List (Action σ φ α)) : ((later m o more).scheduler.takeRetained id).1 = none := by
  refine Std.ExtTreeMap.getElem?_eq_none (later_invariant (I := fun o => id < o.scheduler.nextId ∧
    id ∉ o.scheduler.threads.map (·.id) ∧ id ∉ o.scheduler.retained) ho
      ⟨hlt, hthread, hretained⟩ more ?_).2.2
  rintro o ho ⟨hlt, hthread, hretained⟩ a -
  obtain ⟨new, created, hact⟩ := exists_step m ho a
  refine ⟨by rw [hact.nextId]; exact Nat.lt_add_right _ hlt, ?_, ?_⟩
  · intro hmem
    obtain ⟨t', ht', rfl⟩ := List.mem_map.1 hmem
    rcases Held.id_of_step hact ht' with ⟨t, ht, hid, -⟩ | ⟨hnew, -⟩
    · exact hthread (hid ▸ List.mem_map_of_mem (f := (·.id)) ht)
    · exact absurd hlt (Nat.not_lt.2 hnew)
  · intro hmem
    rcases hact.retained id hmem with hold | ⟨hlive, -⟩
    · exact hretained hold
    · exact hthread hlive

section

variable {v : Visit φ α κ} {index : Nat} {sch : Scheduler (Numbered κ)} {w : Watched σ φ α}
  {t : Thread (Numbered κ)}

/-- Only the thread that is visited can leave in a turn. -/
theorem eq_of_leaves (h : v.Leads index o.scheduler o.state sch w) (ht : t ∈ o.scheduler.threads)
    (hleft : t.id ∉ sch.threads.map (·.id)) : t = v.thread ∧ v.stays = false := by
  have hstay : ∀ t' ∈ sch.threads, t'.id ≠ t.id := fun t' ht' hid =>
    hleft (hid ▸ List.mem_map_of_mem (f := (·.id)) ht')
  rw [h.scheduler] at hstay
  rw [Step.threads_eq h] at ht
  rcases List.mem_append.1 ht with hmem | hmem
  · exact absurd rfl (hstay t (List.mem_append_left _ hmem))
  · rcases List.mem_cons.1 hmem with rfl | hmem
    · refine ⟨rfl, Bool.eq_false_iff.2 fun hstays => ?_⟩
      refine hstay v.resumed (List.mem_append_right _ (List.mem_append_left _ ?_)) rfl
      simp [Visit.stay?, hstays]
    · exact absurd rfl
        (hstay t (List.mem_append_right _ (List.mem_append_right _ (List.mem_append_left _ hmem))))

/-- A kept thread that leaves in a turn leaves its context to be taken. -/
theorem retains_of_visit (h : v.Leads index o.scheduler o.state sch w) (ho : Held o)
    (hstays : v.stays = false) (hkeep : v.thread.keepAlive = true) :
    Retains m { o with scheduler := sch, state := w } v.thread := by
  have hget : sch.retained[v.thread.id]? = some v.resumed.context := by
    rw [h.scheduler]
    simp [hstays, hkeep]
  exact retains_of_retained (ho.step (.visit h ho)) hget rfl

/-- Any other thread that leaves in a turn leaves nothing. -/
theorem givesUp_of_visit (h : v.Leads index o.scheduler o.state sch w) (ho : Held o)
    (hleft : v.thread.id ∉ sch.threads.map (·.id)) (hstays : v.stays = false)
    (hkeep : v.thread.keepAlive = false) :
    GivesUp m { o with scheduler := sch, state := w } v.thread := by
  have hmem : v.thread ∈ o.scheduler.threads := List.mem_of_getElem? h.thread
  constructor
  · rw [h.requests, Request.recycled_append, Step.recycled_requests, Visit.leaving]
    simp [hstays, hkeep]
  · refine takeRetained_later (ho.step (.visit h ho)) ?_ hleft ?_
    · rw [h.scheduler]
      exact Nat.lt_add_right _ (ho.ids_lt _ hmem)
    · rw [h.scheduler]
      simp only [hkeep, Bool.not_false, Bool.or_true, if_true]
      exact fun hretained => ho.retained_left _ hretained (List.mem_map_of_mem hmem)

end

/-- When all threads are ended, every one of them leaves nothing, whether it was to be kept or
not. -/
theorem givesUp_of_abortAll (ho : Held o) {t : Thread (Numbered κ)}
    (ht : t ∈ o.scheduler.threads) : GivesUp m (later m o [.abortAll]) t := by
  obtain ⟨new, hact⟩ := Step.abortAll m o
  have ho' : Held (later m o [.abortAll]) := ho.step hact
  have hlive : t.context.number ∈ o.live := List.mem_map_of_mem ht
  constructor
  · -- the context is with one of its holders, and the machine is the only one that has come to it
    have hheld : t.context.number ∈ (later m o [.abortAll]).held :=
      hact.held.mem_iff.2 (List.mem_append_left _ (List.mem_append_left _ hlive))
    have hdisjoint := (List.nodup_append.1 ho.nodup_held).2.2 _ hlive
    rcases List.mem_append.1 hheld with hnobody | hheld
    · exact absurd hnobody List.not_mem_nil
    · rcases List.mem_append.1 hheld with hstored | hheld
      · exact absurd rfl (hdisjoint _ (List.mem_append_left _ hstored))
      · rcases List.mem_append.1 hheld with htaken | hrecycled
        · exact absurd rfl
            (hdisjoint _ (List.mem_append_right _ (List.mem_append_left _ htaken)))
        · exact hrecycled
  · refine takeRetained_later ho' ?_ List.not_mem_nil ?_
    · exact ho.ids_lt t ht
    · exact fun hretained => ho.retained_left _ hretained (List.mem_map_of_mem ht)

/-- A thread leaves in a turn or at the end of all threads. -/
theorem retains_or_givesUp (ho : Held o) {t : Thread (Numbered κ)} (ht : t ∈ o.scheduler.threads)
    (a : Action σ φ α) (hleft : t.id ∉ (later m o [a]).scheduler.threads.map (·.id)) :
    (t.keepAlive = true → a ≠ .abortAll → Retains m (later m o [a]) t) ∧
      (t.keepAlive = false ∨ a = .abortAll → GivesUp m (later m o [a]) t) := by
  cases a with
  | create function args keepAlive =>
      obtain ⟨x, -, hcreates, -⟩ :=
        Scheduler.exists_creates_createThread m function args keepAlive o.scheduler o.state
      have hstays : t ∈ (later m o [.create function args keepAlive]).scheduler.threads := by
        show t ∈ (Scheduler.createThread m.watched function args keepAlive o.scheduler
          o.state).2.1.threads
        rw [hcreates.scheduler]
        exact List.mem_append_left _ ht
      exact absurd (List.mem_map_of_mem hstays) hleft
  | turn index =>
      cases hget : o.scheduler.threads[index]? with
      | none =>
          have hturn : later m o [.turn index] = o := by
            simp only [later, List.map_cons, List.map_nil, List.foldl_cons, List.foldl_nil,
              Action.watched, act, Scheduler.turn, hget]
          rw [hturn] at hleft
          exact absurd (List.mem_map_of_mem ht) hleft
      | some t₀ =>
          obtain ⟨v, sch, w, hturn, hv⟩ := Scheduler.exists_visit m hget o.state
          rw [later_turn hturn] at hleft ⊢
          obtain ⟨rfl, hstays⟩ := eq_of_leaves hv ht hleft
          refine ⟨fun hkeep _ => retains_of_visit hv ho hstays hkeep, ?_⟩
          rintro (hkeep | habort)
          · exact givesUp_of_visit hv ho hleft hstays hkeep
          · cases habort
  | abortAll => exact ⟨fun _ hne => absurd rfl hne, fun _ => givesUp_of_abortAll ho ht⟩
  | take id => exact absurd (List.mem_map_of_mem ht) hleft
  | elsewhere change => exact absurd (List.mem_map_of_mem ht) hleft

/-! ## Threads that are gone -/

/-- A thread is gone when it has left and its context has been ended. -/
theorem gone_of_ended (ho : Held o) {t : Thread (Numbered κ)} (hlt : t.id < o.scheduler.nextId)
    (hthread : t.id ∉ o.scheduler.threads.map (·.id)) {r : Machine.Request φ α}
    (hr : r ∈ o.state.requests) (hends : r.Ends t.context.number) : Gone m o t := by
  intro more o'
  obtain ⟨ho', new, hrequests⟩ := later_invariant
    (I := fun o' => Held o' ∧ o.state.requests <+: o'.state.requests) ho ⟨ho, List.prefix_rfl⟩ more
    fun o' _ hI a _ => by
      obtain ⟨new, created, hstep⟩ := exists_step m hI.1 a
      exact ⟨hI.1.step hstep, hI.2.trans ⟨new, hstep.requests.symm⟩⟩
  refine ⟨fun hmem => ?_, fun now deadline state hmem => ?_⟩
  · obtain ⟨t', ht', hid⟩ := List.mem_map.1 hmem
    obtain ⟨t'', ht'', hid', -⟩ := exists_of_id_lt m more ho ht' (hid ▸ hlt)
    exact hthread ((hid'.trans hid) ▸ List.mem_map_of_mem (f := (·.id)) ht'')
  · -- what is asked for later comes behind the request that has ended the context
    rw [← hrequests, List.drop_left] at hmem
    obtain ⟨before, after, rfl⟩ := List.append_of_mem hmem
    exact (ho'.orderly (o.state.requests ++ before) _ _ _ _ after
      (by rw [List.append_assoc]; exact hrequests.symm)).2 r (List.mem_append_left _ hr) hends

/-- A thread that leaves in a turn is gone. -/
theorem gone_of_visit {v : Visit φ α κ} {index : Nat} {sch : Scheduler (Numbered κ)}
    {w : Watched σ φ α} (h : v.Leads index o.scheduler o.state sch w) (ho : Held o)
    (hstays : v.stays = false) :
    Gone m { o with scheduler := sch, state := w } v.thread := by
  refine gone_of_ended (ho.step (.visit h ho)) ?_ (Step.id_not_mem_of_leaves h ho hstays)
    (r := .resume v.thread.context.number v.now v.deadline v.state) ?_ ⟨rfl, ?_⟩
  · rw [h.scheduler]
    exact Nat.lt_add_right _ (ho.ids_lt _ (List.mem_of_getElem? h.thread))
  · rw [h.requests]
    exact List.mem_append_right _ List.mem_cons_self
  · exact fun hstate => absurd hstays (by simp [Visit.stays, hstate])

/-- A thread whose resume does not end suspended is gone after the turn. -/
theorem gone_of_turn (ho : Held o) {index : Nat} {t : Thread (Numbered κ)}
    (ht : o.scheduler.threads[index]? = some t)
    (hends : (m.resume t.context.context (o.scheduler.watchdog.arm (m.now o.state.state))
      o.state.state).1 ≠ .suspended) : Gone m (later m o [.turn index]) t := by
  obtain ⟨v, sch, w, hturn, hv⟩ := Scheduler.exists_visit m ht o.state
  obtain rfl : t = v.thread := Option.some.inj (ht.symm.trans hv.thread)
  rw [later_turn hturn]
  refine gone_of_visit hv ho (Bool.eq_false_iff.2 fun hstays => ?_)
  -- the position would have gone on if the thread had stayed
  have hindex : index + v.stay?.toList.length = index :=
    (Scheduler.fst_of_turn ht hturn).trans (if_neg hends)
  simp [Visit.stay?, hstays] at hindex

/-! ## What becomes of contexts -/

/-- After any actions with any machine: a thread is kept if it was created to be kept, those that
scripts ask for are not, and this never changes. When a kept thread leaves otherwise than by the end
of all threads, its context is retained until it is taken, and whoever takes it first gets it. When
any other thread leaves, and when all threads are ended, the context goes back to the machine and is
never retained. -/
theorem kept_unless_aborted (m : Machine σ φ α κ) (watchdog : Watchdog) (s : σ)
    (actions : List (Action σ φ α)) :
    let o := run m.watched watchdog (Watched.start s) (actions.map Action.watched)
    run m watchdog s actions = o.bare ∧
    (∀ (function : φ) (args : Option α) (keepAlive : Bool) (id : Nat),
      (Scheduler.createThread m.watched function args keepAlive o.scheduler o.state).1 = some id →
        ∀ more, ∀ t ∈ (later m o (.create function args keepAlive :: more)).scheduler.threads,
          t.id = id → t.keepAlive = keepAlive) ∧
    (∀ (index : Nat) more, ∀ t ∈ (later m o (.turn index :: more)).scheduler.threads,
      o.scheduler.nextId ≤ t.id → t.id < (later m o [.turn index]).scheduler.nextId →
        t.keepAlive = false) ∧
    ∀ t ∈ o.scheduler.threads, ∀ a : Action σ φ α,
      let o' := later m o [a]
      t.id ∉ o'.scheduler.threads.map (·.id) →
        (t.keepAlive = true → a ≠ .abortAll → Retains m o' t) ∧
        (t.keepAlive = false ∨ a = .abortAll → GivesUp m o' t) := by
  intro o
  have ho : Held o := run_held m watchdog s actions
  exact ⟨run_watched m watchdog s actions, fun _ _ _ _ hid => keepAlive_of_created ho hid,
    keepAlive_of_spawned ho, fun _ ht a hleft => retains_or_givesUp ho ht a hleft⟩

/-- Two threads that end at once, of which the first is kept and asks for a third one before it
ends. -/
def keepsake : List (Action Puppet.Theatre (Option String) Int) :=
  [.create (some "asks") none true, .create (some "ends") none false]

/-- The scripts of the threads. -/
def keepsakeTheatre : Puppet.Theatre :=
  .opening [("asks", [.spawn (some "waits") none]), ("ends", []), ("waits", [.stop .suspended])]

/-- The kept thread leaves in a turn, and whoever takes its context gets it; the same thread leaves
at the end of all threads, and nobody gets it. The other thread leaves, and nobody gets its context,
either. -/
theorem kept_unless_aborted_keepsake :
    let m := Puppet.machine
    let o := run m.watched ⟨100⟩ (Watched.start keepsakeTheatre) (keepsake.map Action.watched)
    (∃ t ∈ o.scheduler.threads, t.id = 1 ∧ t.keepAlive = true ∧
      t.id ∉ (later m o [.turn 0]).scheduler.threads.map (·.id) ∧
      Retains m (later m o [.turn 0]) t ∧ GivesUp m (later m o [.abortAll]) t) ∧
    (∃ t ∈ o.scheduler.threads, t.id = 2 ∧ t.keepAlive = false ∧
      GivesUp m (later m o [.turn 1]) t) ∧
    (∃ t ∈ (later m o [.turn 0]).scheduler.threads, t.id = 3 ∧ t.keepAlive = false) ∧
    (∃ t ∈ (later m o [.create (some "waits") none true]).scheduler.threads,
      t.id = 3 ∧ t.keepAlive = true) := by
  intro m o
  obtain ⟨-, hcreated, hspawned, hleaves⟩ :=
    kept_unless_aborted m ⟨100⟩ keepsakeTheatre keepsake
  have hthreads : ∃ t₁ t₂, o.scheduler.threads = [t₁, t₂] ∧ t₁.id = 1 ∧ t₁.keepAlive = true ∧
      t₂.id = 2 ∧ t₂.keepAlive = false := ⟨_, _, rfl, rfl, rfl, rfl, rfl⟩
  obtain ⟨t₁, t₂, hlist, hid₁, hkeep₁, hid₂, hkeep₂⟩ := hthreads
  have ht₁ : t₁ ∈ o.scheduler.threads := by simp [hlist]
  have ht₂ : t₂ ∈ o.scheduler.threads := by simp [hlist]
  have hfirst : (later m o [.turn 0]).scheduler.threads.map (·.id) = [2, 3] := rfl
  have hsecond : (later m o [.turn 1]).scheduler.threads.map (·.id) = [1] := rfl
  have hleft₁ : t₁.id ∉ (later m o [.turn 0]).scheduler.threads.map (·.id) := by
    rw [hfirst, hid₁]
    decide
  have hleft₂ : t₂.id ∉ (later m o [.turn 1]).scheduler.threads.map (·.id) := by
    rw [hsecond, hid₂]
    decide
  refine ⟨⟨t₁, ht₁, hid₁, hkeep₁, hleft₁, (hleaves t₁ ht₁ _ hleft₁).1 hkeep₁ (by simp),
    (hleaves t₁ ht₁ .abortAll List.not_mem_nil).2 (.inr rfl)⟩,
    ⟨t₂, ht₂, hid₂, hkeep₂, (hleaves t₂ ht₂ _ hleft₂).2 (.inl hkeep₂)⟩, ?_, ?_⟩
  · have hthird : ∃ t ∈ (later m o [.turn 0]).scheduler.threads, t.id = 3 :=
      List.mem_map.1 (hfirst ▸ (by decide : 3 ∈ [2, 3]))
    obtain ⟨t, ht, hid⟩ := hthird
    exact ⟨t, ht, hid, hspawned 0 [] t ht (by rw [hid]; exact le_rfl)
      (by rw [hid]; exact Nat.lt_succ_self 3)⟩
  · have hnew : (later m o [.create (some "waits") none true]).scheduler.threads.map (·.id) =
        [1, 2, 3] := rfl
    obtain ⟨t, ht, hid⟩ := List.mem_map.1 (hnew ▸ (by decide : 3 ∈ [1, 2, 3]))
    exact ⟨t, ht, hid, hcreated (some "waits") none true 3 rfl [] t ht hid⟩

/-- A thread that was created to be kept is ended with all threads: it is not alive any more, its
context has gone back to the machine, and its creator gets nothing. -/
theorem abortAll_gives_up_kept :
    let o := run Puppet.machine ⟨100⟩ keepsakeTheatre [.create (some "waits") none true, .turn 0]
    let o' := act Puppet.machine o .abortAll
    o.scheduler.threads.map (fun t => (t.id, t.keepAlive)) = [(1, true)] ∧
      o'.scheduler.isAlive 1 = false ∧ (o'.scheduler.takeRetained 1).1 = none ∧
      o'.scheduler.retainedCount = 0 ∧
      o'.state.notes = o.state.notes ++
        #[.abort "fake#1", .recycle "fake#1" .aborted, .collectFull] := by
  intro o o'
  exact ⟨rfl, rfl, rfl, rfl, rfl⟩

end Custody

end Cutscene
