import Mathlib.Data.List.Nodup
import Cutscene.Proofs.Thread.Visits
import Cutscene.Thread.Puppet

/-!
# Who holds a context

A context that a machine has prepared is at any moment with one holder: a live thread, the retained
ones, whoever has taken it, or the machine to which it has gone back. `Custody` is a scheduler with
its machine and what was taken from it, and `run` does with them what a caller can do, in any order.
A tick is done turn by turn, so that the moments within a tick are among those reached, and those of
a tick that never ends.

All is read off what a watched machine has been asked for. `Step` says what any action does to the
contexts, `Held` is what every step preserves, and `run_held` holds after any actions.
-/

namespace Cutscene

variable {σ φ α κ : Type}

/-! ## What has been asked of a machine -/

namespace Machine.Request

/-- The contexts that have been prepared, in order. -/
def prepared (rs : List (Request φ α)) : List Nat :=
  rs.filterMap fun
    | .prepare _ _ context => context
    | _ => none

/-- The contexts that have gone back to the machine, in order. -/
def recycled (rs : List (Request φ α)) : List Nat :=
  rs.filterMap fun
    | .recycle context => some context
    | _ => none

@[simp] theorem prepared_append (rs rs' : List (Request φ α)) :
    prepared (rs ++ rs') = prepared rs ++ prepared rs' := List.filterMap_append

@[simp] theorem recycled_append (rs rs' : List (Request φ α)) :
    recycled (rs ++ rs') = recycled rs ++ recycled rs' := List.filterMap_append

/-- After this request the context is not to be resumed: a resume of it has not ended suspended, or
it was aborted, or it has gone back. -/
def Ends (r : Request φ α) (n : Nat) : Prop :=
  match r with
  | .resume context _ _ state => context = n ∧ state ≠ .suspended
  | .abort context => context = n
  | .recycle context => context = n
  | _ => False

/-- Every context that is resumed has been prepared before, and nothing before has ended it. -/
def Orderly (rs : List (Request φ α)) : Prop :=
  ∀ before n now deadline state after, rs = before ++ .resume n now deadline state :: after →
    n ∈ prepared before ∧ ∀ r ∈ before, ¬r.Ends n

end Machine.Request

open Machine (Request)

/-! ## Actions -/

/-- A scheduler, the state of its machine, and the retained contexts that were taken. -/
structure Custody (σ κ : Type) where
  scheduler : Scheduler κ
  state : σ
  taken : List κ

namespace Custody

/-- What can be done with a scheduler. -/
inductive Action (σ φ α : Type) where
  | create (function : φ) (args : Option α) (keepAlive : Bool)
  /-- A turn of a tick, at a position. -/
  | turn (index : Nat)
  | abortAll
  | take (id : Nat)
  /-- The machine does something that the scheduler has no part in. -/
  | elsewhere (change : σ → σ)

/-- Does something. -/
def act (m : Machine σ φ α κ) (o : Custody σ κ) : Action σ φ α → Custody σ κ
  | .create function args keepAlive =>
    let r := Scheduler.createThread m function args keepAlive o.scheduler o.state
    { o with scheduler := r.2.1, state := r.2.2 }
  | .turn index =>
    match Scheduler.turn m index o.scheduler o.state with
    | some (_, scheduler, state) => { o with scheduler, state }
    | none => o
  | .abortAll =>
    let r := Scheduler.abortAll m o.scheduler o.state
    { o with scheduler := r.1, state := r.2 }
  | .take id =>
    let r := o.scheduler.takeRetained id
    { o with scheduler := r.2, taken := o.taken ++ r.1.toList }
  | .elsewhere change => { o with state := change o.state }

/-- A new scheduler. -/
def start (watchdog : Watchdog) (s : σ) : Custody σ κ := ⟨.empty watchdog, s, []⟩

/-- Does one thing after the other with a new scheduler. -/
def run (m : Machine σ φ α κ) (watchdog : Watchdog) (s : σ) (actions : List (Action σ φ α)) :
    Custody σ κ :=
  actions.foldl (act m) (start watchdog s)

/-- The same action with a machine that is watched. -/
def Action.watched : Action σ φ α → Action (Watched σ φ α) φ α
  | .create function args keepAlive => .create function args keepAlive
  | .turn index => .turn index
  | .abortAll => .abortAll
  | .take id => .take id
  | .elsewhere change => .elsewhere fun w => { w with state := change w.state }

/-- What there is without the numbers of the contexts. -/
def bare (o : Custody (Watched σ φ α) (Numbered κ)) : Custody σ κ :=
  ⟨o.scheduler.bare, o.state.state, o.taken.map (·.context)⟩

theorem act_watched (m : Machine σ φ α κ) (o : Custody (Watched σ φ α) (Numbered κ))
    (a : Action σ φ α) : act m o.bare a = (act m.watched o a.watched).bare := by
  cases a with
  | create function args keepAlive =>
      simp only [act, bare, Action.watched, Scheduler.createThread_watched]
  | turn index =>
      simp only [act, bare, Action.watched, Scheduler.turn_watched]
      cases Scheduler.turn m.watched index o.scheduler o.state with
      | none => rfl
      | some r => rfl
  | abortAll => simp only [act, bare, Action.watched, Scheduler.abortAll_watched]
  | take id =>
      simp only [act, bare, Action.watched, Scheduler.takeRetained_bare, List.map_append]
      cases (o.scheduler.takeRetained id).1 with
      | none => rfl
      | some c => rfl
  | elsewhere change => rfl

/-- Watching changes nothing. -/
theorem run_watched (m : Machine σ φ α κ) (watchdog : Watchdog) (s : σ)
    (actions : List (Action σ φ α)) :
    run m watchdog s actions =
      (run m.watched watchdog (Watched.start s) (actions.map Action.watched)).bare := by
  have hstart : (start watchdog s : Custody σ κ) =
      bare (start watchdog (Watched.start s) : Custody (Watched σ φ α) (Numbered κ)) := by
    have hempty : (∅ : Std.ExtTreeMap Nat (Numbered κ)).map (fun _ c => c.context) = ∅ := by
      ext id c
      simp
    simp [start, bare, Scheduler.bare, Scheduler.empty, Watched.start, hempty]
  unfold run
  rw [hstart]
  -- the induction is over any state to start from, since every action leads to another one
  generalize start watchdog (Watched.start s) = o
  induction actions generalizing o with
  | nil => rfl
  | cons a actions ih =>
      rw [List.map_cons, List.foldl_cons, List.foldl_cons, act_watched]
      exact ih _

/-! ## Holders -/

/-- The contexts of live threads. -/
def live (o : Custody (Watched σ φ α) (Numbered κ)) : List Nat :=
  o.scheduler.threads.map (·.context.number)

/-- The contexts in a map. -/
def stored (retained : Std.ExtTreeMap Nat (Numbered κ)) : List Nat :=
  retained.toList.map (·.2.number)

/-- All contexts with their holders: live threads, retained ones, those taken, and the machine. -/
def held (o : Custody (Watched σ φ α) (Numbered κ)) : List Nat :=
  o.live ++ (stored o.scheduler.retained ++
    (o.taken.map (·.number) ++ Request.recycled o.state.requests))

section

variable {retained : Std.ExtTreeMap Nat (Numbered κ)} {id : Nat} {c : Numbered κ}

theorem nodup_toList (retained : Std.ExtTreeMap Nat (Numbered κ)) : retained.toList.Nodup :=
  retained.distinct_keys_toList.imp fun hne heq => hne (by rw [heq]; exact Nat.compare_eq_eq.2 rfl)

/-- A new entry comes to those that there are. -/
theorem stored_insert (h : id ∉ retained) (c : Numbered κ) :
    (stored (retained.insert id c)).Perm (c.number :: stored retained) := by
  have hperm : (retained.insert id c).toList.Perm ((id, c) :: retained.toList) := by
    have hfresh : (id, c) ∉ retained.toList := by
      intro hmem
      have hget := Std.ExtTreeMap.mem_toList_iff_getElem?_eq_some.1 hmem
      exact h (Std.ExtTreeMap.mem_iff_isSome_getElem?.2 (by rw [hget]; rfl))
    -- neither list has an entry twice, so it is enough that they have the same entries
    rw [List.perm_ext_iff_of_nodup (nodup_toList _) (List.nodup_cons.2 ⟨hfresh, nodup_toList _⟩)]
    rintro ⟨k, d⟩
    rw [Std.ExtTreeMap.mem_toList_iff_getElem?_eq_some, Std.ExtTreeMap.getElem?_insert,
      List.mem_cons, Std.ExtTreeMap.mem_toList_iff_getElem?_eq_some]
    by_cases hk : id = k
    · subst hk
      have hnone : retained[id]? = none := Std.ExtTreeMap.getElem?_eq_none h
      simp [hnone, eq_comm]
    · simp [hk, Ne.symm hk]
  exact hperm.map _

/-- An entry that is taken away was among those that there were. -/
theorem stored_erase (h : retained[id]? = some c) :
    (stored retained).Perm (c.number :: stored (retained.erase id)) := by
  have hinsert : (retained.erase id).insert id c = retained := by
    ext k d
    rw [Std.ExtTreeMap.getElem?_insert, Std.ExtTreeMap.getElem?_erase]
    by_cases hk : id = k
    · subst hk
      simp [h]
    · simp [hk]
  have hfresh : id ∉ retained.erase id := by simp
  have hperm := stored_insert hfresh c
  rwa [hinsert] at hperm

theorem erase_eq_self (h : retained[id]? = none) : retained.erase id = retained := by
  ext k d
  rw [Std.ExtTreeMap.getElem?_erase]
  by_cases hk : id = k
  · subst hk
    simp [h]
  · simp [hk]

end

/-! ## What an action does to the contexts -/

/-- What any action does: the machine is asked for something, some threads leave, and others are
created behind those that stay. -/
structure Step (new : List (Request φ α)) (created : List (Thread (Numbered κ)))
    (o o' : Custody (Watched σ φ α) (Numbered κ)) : Prop where
  requests : o'.state.requests = o.state.requests ++ new
  prepared : o'.state.prepared = o.state.prepared + created.length
  newly : Request.prepared new = List.range' o.state.prepared created.length
  nextId : o'.scheduler.nextId = o.scheduler.nextId + created.length
  ids : created.map (·.id) = List.range' o.scheduler.nextId created.length
  numbers : created.map (·.context.number) = List.range' o.state.prepared created.length
  /-- Those that stay keep their order, their numbers and their contexts. -/
  threads : ∃ ts : List (Thread (Numbered κ)), o'.scheduler.threads = ts ++ created ∧
    (ts.map fun t => (t.id, t.context.number)).Sublist
      (o.scheduler.threads.map fun t => (t.id, t.context.number))
  held : o'.held.Perm (o.held ++ List.range' o.state.prepared created.length)
  retained : ∀ id ∈ o'.scheduler.retained, id ∈ o.scheduler.retained ∨
    (id ∈ o.scheduler.threads.map (·.id) ∧ id ∉ o'.scheduler.threads.map (·.id))
  /-- Only the first request can be a resume. -/
  resumes : ∀ before n now deadline state after,
    new = before ++ .resume n now deadline state :: after → before = [] ∧ n ∈ o.live
  ends : ∀ r ∈ new, ∀ n, r.Ends n → n ∈ o.live ∧ n ∉ o'.live

/-- What holds after any actions. -/
structure Held (o : Custody (Watched σ φ α) (Numbered κ)) : Prop where
  /-- Every context that has been prepared has one holder, and it has it once. -/
  held : o.held.Perm (List.range o.state.prepared)
  prepared : Request.prepared o.state.requests = List.range o.state.prepared
  orderly : Request.Orderly o.state.requests
  unended : ∀ n ∈ o.live, ∀ r ∈ o.state.requests, ¬r.Ends n
  ended_lt : ∀ r ∈ o.state.requests, ∀ n, r.Ends n → n < o.state.prepared
  ids : (o.scheduler.threads.map (·.id)).Pairwise (· < ·)
  ids_lt : ∀ t ∈ o.scheduler.threads, t.id < o.scheduler.nextId
  retained_lt : ∀ id ∈ o.scheduler.retained, id < o.scheduler.nextId
  retained_left : ∀ id ∈ o.scheduler.retained, id ∉ o.scheduler.threads.map (·.id)

namespace Held

variable {new : List (Request φ α)} {created : List (Thread (Numbered κ))}
  {o o' : Custody (Watched σ φ α) (Numbered κ)} {n : Nat}

theorem nodup_held (h : Held o) : o.held.Nodup := h.held.nodup_iff.2 List.nodup_range

theorem nodup_live (h : Held o) : o.live.Nodup := (List.nodup_append.1 h.nodup_held).1

theorem lt_of_live (h : Held o) (hn : n ∈ o.live) : n < o.state.prepared :=
  List.mem_range.1 (h.held.mem_iff.1 (List.mem_append_left _ hn))

/-- A context that is live after an action was so before or has just been prepared. -/
theorem live_of_step (hstep : Step new created o o') (hn : n ∈ o'.live) :
    n ∈ o.live ∨ o.state.prepared ≤ n ∧ n < o'.state.prepared := by
  obtain ⟨ts, hthreads, hsub⟩ := hstep.threads
  rw [live, hthreads, List.map_append, List.mem_append, hstep.numbers, List.mem_range'_1] at hn
  rcases hn with hn | hn
  · have hsub' := (hsub.map Prod.snd).subset
    simp only [List.map_map, Function.comp_def] at hsub'
    exact .inl (hsub' hn)
  · exact .inr (by rw [hstep.prepared]; exact hn)

/-- The same of a thread and its number. -/
theorem id_of_step (hstep : Step new created o o') {t : Thread (Numbered κ)}
    (ht : t ∈ o'.scheduler.threads) :
    (∃ t' ∈ o.scheduler.threads, t'.id = t.id ∧ t'.context.number = t.context.number) ∨
      o.scheduler.nextId ≤ t.id ∧ t.id < o'.scheduler.nextId := by
  obtain ⟨ts, hthreads, hsub⟩ := hstep.threads
  rw [hthreads, List.mem_append] at ht
  rcases ht with ht | ht
  · have hmem := hsub.subset (List.mem_map_of_mem ht)
    obtain ⟨t', ht', heq⟩ := List.mem_map.1 hmem
    exact .inl ⟨t', ht', (Prod.mk.inj heq).1, (Prod.mk.inj heq).2⟩
  · have hid := List.mem_map_of_mem (f := (·.id)) ht
    rw [hstep.ids, List.mem_range'_1] at hid
    exact .inr (by rw [hstep.nextId]; exact hid)

theorem orderly_step (h : Held o) (hstep : Step new created o o') :
    Request.Orderly o'.state.requests := by
  intro before n now deadline state after heq
  rw [hstep.requests] at heq
  rcases List.append_eq_append_iff.1 heq with ⟨rest, hbefore, hnew⟩ | ⟨rest, hold, hrest⟩
  · -- the resume is new, and so the first of the new requests
    obtain ⟨rfl, hlive⟩ := hstep.resumes _ _ _ _ _ _ hnew
    rw [List.append_nil] at hbefore
    rw [hbefore, h.prepared]
    exact ⟨List.mem_range.2 (h.lt_of_live hlive), h.unended n hlive⟩
  · cases rest with
    | nil =>
        obtain ⟨-, hlive⟩ := hstep.resumes [] n now deadline state after hrest.symm
        rw [List.append_nil] at hold
        rw [← hold, h.prepared]
        exact ⟨List.mem_range.2 (h.lt_of_live hlive), h.unended n hlive⟩
    | cons r rest =>
        rw [List.cons_append, List.cons.injEq] at hrest
        obtain ⟨rfl, -⟩ := hrest
        exact h.orderly before n now deadline state rest hold

/-- What holds is preserved by every action. -/
theorem step (h : Held o) (hstep : Step new created o o') : Held o' where
  held := by
    refine hstep.held.trans ((h.held.append_right _).trans ?_)
    rw [hstep.prepared, List.range_eq_range', List.range_eq_range', ← List.range'_append_1,
      Nat.zero_add]
  prepared := by
    rw [hstep.requests, Request.prepared_append, h.prepared, hstep.newly, hstep.prepared,
      List.range_eq_range', List.range_eq_range', ← List.range'_append_1, Nat.zero_add]
  orderly := h.orderly_step hstep
  unended := by
    intro n hn r hr hends
    rw [hstep.requests, List.mem_append] at hr
    rcases hr with hr | hr
    · rcases live_of_step hstep hn with hold | ⟨hge, -⟩
      · exact h.unended n hold r hr hends
      · -- nothing has ended a context before it was prepared
        exact absurd (h.ended_lt r hr n hends) (Nat.not_lt.2 hge)
    · exact (hstep.ends r hr n hends).2 hn
  ended_lt := by
    intro r hr n hends
    rw [hstep.prepared]
    rw [hstep.requests, List.mem_append] at hr
    rcases hr with hr | hr
    · exact Nat.lt_add_right _ (h.ended_lt r hr n hends)
    · exact Nat.lt_add_right _ (h.lt_of_live (hstep.ends r hr n hends).1)
  ids := by
    obtain ⟨ts, hthreads, hsub⟩ := hstep.threads
    have hsub' := hsub.map Prod.fst
    simp only [List.map_map, Function.comp_def] at hsub'
    rw [hthreads, List.map_append, hstep.ids]
    refine List.pairwise_append.2 ⟨h.ids.sublist hsub', List.pairwise_lt_range', ?_⟩
    intro a ha b hb
    obtain ⟨t, ht, rfl⟩ := List.mem_map.1 (hsub'.subset ha)
    exact (h.ids_lt t ht).trans_le (List.mem_range'_1.1 hb).1
  ids_lt := by
    intro t ht
    rcases id_of_step hstep ht with ⟨t', ht', hid, -⟩ | ⟨-, hlt⟩
    · rw [← hid, hstep.nextId]
      exact Nat.lt_add_right _ (h.ids_lt t' ht')
    · exact hlt
  retained_lt := by
    intro id hid
    rw [hstep.nextId]
    rcases hstep.retained id hid with hold | ⟨hthread, -⟩
    · exact Nat.lt_add_right _ (h.retained_lt id hold)
    · obtain ⟨t, ht, rfl⟩ := List.mem_map.1 hthread
      exact Nat.lt_add_right _ (h.ids_lt t ht)
  retained_left := by
    intro id hid hthread
    rcases hstep.retained id hid with hold | ⟨-, hleft⟩
    · obtain ⟨t, ht, rfl⟩ := List.mem_map.1 hthread
      rcases id_of_step hstep ht with ⟨t', ht', heq, -⟩ | ⟨hge, -⟩
      · exact h.retained_left t.id hold (heq ▸ List.mem_map_of_mem (f := (·.id)) ht')
      · -- a new thread has a number that none has had
        exact absurd (h.retained_lt t.id hold) (Nat.not_lt.2 hge)
    · exact hleft hthread

/-- Nothing has been asked of the machine of a new scheduler. -/
theorem start (watchdog : Watchdog) (s : σ) :
    Held (start watchdog (Watched.start s) : Custody (Watched σ φ α) (Numbered κ)) where
  held := by
    have hempty : (∅ : Std.ExtTreeMap Nat (Numbered κ)).toList = [] := by
      rw [List.eq_nil_iff_forall_not_mem]
      rintro ⟨id, c⟩ hmem
      have hget := Std.ExtTreeMap.mem_toList_iff_getElem?_eq_some.1 hmem
      simp at hget
    simp [Custody.held, live, stored, hempty, Custody.start, Scheduler.empty, Watched.start,
      Request.recycled]
  prepared := rfl
  orderly := by
    intro before n now deadline state after heq
    simp [Custody.start, Watched.start] at heq
  unended := by
    intro n hn
    simp [live, Custody.start, Scheduler.empty] at hn
  ended_lt := by
    intro r hr
    simp [Custody.start, Watched.start] at hr
  ids := .nil
  ids_lt := by
    intro t ht
    simp [Custody.start, Scheduler.empty] at ht
  retained_lt := by
    intro id hid
    simp [Custody.start, Scheduler.empty] at hid
  retained_left := by
    intro id hid
    simp [Custody.start, Scheduler.empty] at hid

end Held

/-! ## Every action is a step -/

namespace Step

variable {o : Custody (Watched σ φ α) (Numbered κ)} {sch : Scheduler (Numbered κ)}
  {w : Watched σ φ α}

/-- Nothing happens to a context. -/
theorem quiet (o : Custody (Watched σ φ α) (Numbered κ)) (s : σ) :
    Step [] [] o { o with state := { o.state with state := s } } where
  requests := (List.append_nil _).symm
  prepared := rfl
  newly := rfl
  nextId := rfl
  ids := rfl
  numbers := rfl
  threads := ⟨o.scheduler.threads, (List.append_nil _).symm, .refl _⟩
  held := by
    rw [List.length_nil, List.range'_zero, List.append_nil]
    exact .refl _
  retained := fun _ hid => .inl hid
  resumes := by simp
  ends := by simp

theorem prepared_map_prepare (xs : List (Spawn φ α κ)) :
    Request.prepared (xs.map Spawn.prepare) = (Spawn.created xs).map (·.context.number) := by
  induction xs with
  | nil => rfl
  | cons x xs ih =>
      cases h : x.thread? <;> simpa [Request.prepared, Spawn.prepare, Spawn.created, h] using ih

theorem recycled_map_prepare (xs : List (Spawn φ α κ)) :
    Request.recycled (xs.map Spawn.prepare) = [] := by
  simp [Request.recycled, Spawn.prepare]

/-- Nothing ends by the preparation of contexts. -/
theorem not_ends_of_mem_map_prepare {xs : List (Spawn φ α κ)} {r : Request φ α}
    (hr : r ∈ xs.map Spawn.prepare) (n : Nat) : ¬r.Ends n := by
  obtain ⟨x, -, rfl⟩ := List.mem_map.1 hr
  exact id

/-- The creation of threads. -/
theorem creates {xs : List (Spawn φ α κ)} (h : Creates xs o.scheduler o.state sch w) :
    Step (xs.map Spawn.prepare) (Spawn.created xs) o { o with scheduler := sch, state := w } where
  requests := h.requests
  prepared := h.prepared
  newly := (prepared_map_prepare xs).trans h.numbers
  nextId := by rw [h.scheduler]
  ids := h.ids
  numbers := h.numbers
  threads := ⟨o.scheduler.threads, by rw [h.scheduler], .refl _⟩
  held := by
    rw [Custody.held, live, h.scheduler, List.map_append, h.numbers, h.requests,
      Request.recycled_append, recycled_map_prepare, List.append_nil, List.append_assoc]
    rw [Custody.held, live, List.append_assoc]
    exact List.perm_append_comm.append_left _
  retained := by
    rw [h.scheduler]
    exact fun _ hid => .inl hid
  resumes := by
    intro before n now deadline state after heq
    have hmem : .resume n now deadline state ∈ xs.map (Spawn.prepare (κ := κ)) := by simp [heq]
    obtain ⟨x, -, hx⟩ := List.mem_map.1 hmem
    exact absurd hx (by simp [Spawn.prepare])
  ends := fun _ hr n hends => absurd hends (not_ends_of_mem_map_prepare hr n)

/-! ### Turns -/

section

variable {v : Visit φ α κ} {index : Nat} {w₀ : Watched σ φ α} {sch₀ : Scheduler (Numbered κ)}

/-- The threads around the one that is visited. -/
theorem threads_eq (h : v.Leads index sch₀ w₀ sch w) :
    sch₀.threads = sch₀.threads.take index ++ v.thread :: sch₀.threads.drop (index + 1) := by
  obtain ⟨hlt, hget⟩ := List.getElem?_eq_some_iff.1 h.thread
  rw [← hget, ← List.drop_eq_getElem_cons hlt, List.take_append_drop]

/-- A thread that leaves is not found any more by what is its own. -/
theorem not_mem_of_leaves (f : Thread (Numbered κ) → Nat) (h : v.Leads index sch₀ w₀ sch w)
    (hstays : v.stays = false) (hnodup : (sch₀.threads.map f).Nodup)
    (hnew : ∀ t ∈ v.created, f v.thread ≠ f t) : f v.thread ∉ sch.threads.map f := by
  have hstay : v.stay?.toList = [] := by simp [Visit.stay?, hstays]
  rw [threads_eq h, List.map_append, List.map_cons, List.nodup_middle, List.nodup_cons] at hnodup
  rw [h.scheduler, hstay, List.nil_append, ← List.append_assoc, List.map_append, List.mem_append,
    List.map_append]
  rintro (hold | hcreated)
  · exact hnodup.1 hold
  · obtain ⟨t, ht, heq⟩ := List.mem_map.1 hcreated
    exact hnew t ht heq.symm

/-- A thread that leaves is not found any more by its number. -/
theorem id_not_mem_of_leaves (h : v.Leads index o.scheduler o.state sch w) (ho : Held o)
    (hstays : v.stays = false) : v.thread.id ∉ sch.threads.map (·.id) := by
  refine not_mem_of_leaves (·.id) h hstays (ho.ids.imp Nat.ne_of_lt) fun t ht => ?_
  have hid := List.mem_map_of_mem (f := (·.id)) ht
  rw [h.ids, List.mem_range'_1] at hid
  exact ((ho.ids_lt _ (List.mem_of_getElem? h.thread)).trans_le hid.1).ne

/-- Only the thread that is visited can end, and then it leaves. -/
theorem ends_of_visit {r : Request φ α} {n : Nat} (hr : r ∈ v.requests) (hends : r.Ends n) :
    n = v.thread.context.number ∧ v.stays = false := by
  rw [Visit.requests, List.mem_cons, List.mem_cons, List.mem_append, List.mem_append,
    List.mem_singleton] at hr
  rcases hr with rfl | rfl | (hr | hr) | rfl
  · exact ⟨hends.1.symm, by simpa [Visit.stays] using hends.2⟩
  · exact hends.elim
  · exact absurd hends (not_ends_of_mem_map_prepare hr n)
  · obtain ⟨c, hc, rfl⟩ := List.mem_map.1 hr
    rw [Visit.leaving] at hc
    split at hc
    · exact absurd hc List.not_mem_nil
    · next hleaves =>
        obtain rfl := List.mem_singleton.1 hc
        exact ⟨Eq.symm hends, by simpa using (not_or.1 (mt Bool.or_eq_true_iff.2 hleaves)).1⟩
  · exact hends.elim

theorem recycled_requests (v : Visit φ α κ) : Request.recycled v.requests = v.leaving := by
  have hspawns := recycled_map_prepare v.spawns
  unfold Request.recycled at hspawns ⊢
  simp [Visit.requests, Visit.farewell, hspawns]

theorem prepared_requests (v : Visit φ α κ) :
    Request.prepared v.requests = v.created.map (·.context.number) := by
  have hspawns := prepared_map_prepare v.spawns
  unfold Request.prepared at hspawns ⊢
  simp [Visit.requests, Visit.farewell, Visit.created, hspawns]

/-- The context of a thread that leaves is retained or goes back; any other stays where it is. -/
theorem held_of_visit {o' : Custody (Watched σ φ α) (Numbered κ)}
    (h : v.Leads index o.scheduler o.state o'.scheduler o'.state) (ho : Held o)
    (htaken : o'.taken = o.taken) :
    o'.held.Perm (o.held ++ List.range' o.state.prepared v.created.length) := by
  have hrecycled : Request.recycled o'.state.requests =
      Request.recycled o.state.requests ++ Request.recycled v.requests := by
    rw [h.requests, Request.recycled_append]
  have hstored : (stored o'.scheduler.retained).Perm
      ((if v.stays || !v.thread.keepAlive then [] else [v.thread.context.number]) ++
        stored o.scheduler.retained) := by
    rw [h.scheduler]
    split
    · exact .refl _
    · refine stored_insert (fun hid => ?_) _
      exact ho.retained_left _ hid (List.mem_map_of_mem (List.mem_of_getElem? h.thread))
  have hlive : o'.live = (o.scheduler.threads.take index).map (·.context.number) ++
      ((if v.stays then [v.thread.context.number] else []) ++
        ((o.scheduler.threads.drop (index + 1)).map (·.context.number) ++
          List.range' o.state.prepared v.created.length)) := by
    rw [live, h.scheduler, ← h.numbers]
    cases hstays : v.stays <;> simp [Visit.stay?, hstays, Visit.resumed]
  have hwas : o.live = (o.scheduler.threads.take index).map (·.context.number) ++
      v.thread.context.number :: (o.scheduler.threads.drop (index + 1)).map (·.context.number) := by
    have hsplit := congrArg (List.map (·.context.number)) (threads_eq h)
    rwa [List.map_append, List.map_cons] at hsplit
  -- it is enough to count every context on both sides
  rw [List.perm_iff_count]
  intro n
  have hcount := hstored.count_eq n
  rw [Custody.held, Custody.held, hlive, hwas, hrecycled, recycled_requests, htaken, Visit.leaving]
  simp only [List.count_append, List.count_cons] at hcount ⊢
  revert hcount
  cases v.stays <;> cases v.thread.keepAlive <;> intro hcount <;>
    simp only [Bool.or_true, Bool.or_false, Bool.not_true, Bool.not_false, if_true,
      Bool.false_eq_true, if_false, List.count_nil, List.count_cons] at hcount ⊢ <;>
    omega

/-- A turn with a thread at its position. -/
theorem visit (h : v.Leads index o.scheduler o.state sch w) (ho : Held o) :
    Step v.requests v.created o { o with scheduler := sch, state := w } where
  requests := h.requests
  prepared := h.prepared
  newly := (prepared_requests v).trans h.numbers
  nextId := by rw [h.scheduler]
  ids := h.ids
  numbers := h.numbers
  threads := by
    refine ⟨o.scheduler.threads.take index ++
      (v.stay?.toList ++ o.scheduler.threads.drop (index + 1)), ?_, ?_⟩
    · rw [h.scheduler]
      simp only [List.append_assoc]
    · have hstay : (v.stay?.toList.map fun t => (t.id, t.context.number)).Sublist
          [(v.thread.id, v.thread.context.number)] := by
        cases hstays : v.stays <;> simp [Visit.stay?, hstays, Visit.resumed]
      have hsplit := congrArg (List.map fun t => (t.id, t.context.number)) (threads_eq h)
      rw [List.map_append, List.map_cons] at hsplit
      rw [hsplit, List.map_append, List.map_append]
      exact (List.Sublist.refl _).append (hstay.append (.refl _))
  held := held_of_visit h ho rfl
  retained := by
    intro id hid
    have hmem : v.thread ∈ o.scheduler.threads := List.mem_of_getElem? h.thread
    rw [h.scheduler] at hid
    split at hid
    · exact .inl hid
    · next hleaves =>
        rcases Std.ExtTreeMap.mem_insert.1 hid with heq | hold
        · have hstays : v.stays = false := by
            simpa using (not_or.1 (mt Bool.or_eq_true_iff.2 hleaves)).1
          obtain rfl := Nat.compare_eq_eq.1 heq
          exact .inr ⟨List.mem_map_of_mem hmem, id_not_mem_of_leaves h ho hstays⟩
        · exact .inl hold
  resumes := by
    intro before n now deadline state after heq
    cases before with
    | nil =>
        obtain ⟨rfl, -⟩ := Request.resume.inj (List.cons.inj heq).1
        exact ⟨rfl, List.mem_map_of_mem (List.mem_of_getElem? h.thread)⟩
    | cons r before =>
        -- behind the resume at the beginning there is no other
        have hmem : .resume n now deadline state ∈
            before ++ .resume n now deadline state :: after :=
          List.mem_append_right _ List.mem_cons_self
        rw [Visit.requests, List.cons_append, List.cons.injEq] at heq
        rw [← heq.2] at hmem
        simp [Spawn.prepare, Visit.farewell] at hmem
  ends := by
    intro r hr n hends
    obtain ⟨rfl, hstays⟩ := ends_of_visit hr hends
    have hmem : v.thread ∈ o.scheduler.threads := List.mem_of_getElem? h.thread
    have hlive : v.thread.context.number ∈ o.live := List.mem_map_of_mem hmem
    refine ⟨hlive, not_mem_of_leaves (·.context.number) h hstays ho.nodup_live fun t ht => ?_⟩
    have hnumber := List.mem_map_of_mem (f := (·.context.number)) ht
    rw [h.numbers, List.mem_range'_1] at hnumber
    exact ((ho.lt_of_live hlive).trans_le hnumber.1).ne

end

/-! ### The other actions -/

/-- What the machine is asked for when a thread is discarded. -/
def discards (t : Thread (Numbered κ)) : List (Request φ α) :=
  [.abort t.context.number, .recycle t.context.number]

theorem recycled_flatMap_discards (ts : List (Thread (Numbered κ))) :
    Request.recycled (ts.flatMap (discards (φ := φ) (α := α))) = ts.map (·.context.number) := by
  induction ts with
  | nil => rfl
  | cons t ts ih => simpa [Request.recycled, discards] using ih

theorem prepared_flatMap_discards (ts : List (Thread (Numbered κ))) :
    Request.prepared (ts.flatMap (discards (φ := φ) (α := α))) = [] := by
  induction ts with
  | nil => rfl
  | cons t ts ih => simpa [Request.prepared, discards] using ih

theorem exists_foldl_discard (m : Machine σ φ α κ) (ts : List (Thread (Numbered κ)))
    (w : Watched σ φ α) : ∃ s, ts.foldl (Scheduler.discard m.watched) w =
      ⟨s, w.requests ++ ts.flatMap discards, w.prepared⟩ := by
  induction ts generalizing w with
  | nil => exact ⟨w.state, by simp⟩
  | cons t ts ih =>
      obtain ⟨s, hs⟩ := ih (Scheduler.discard m.watched w t)
      refine ⟨s, ?_⟩
      rw [List.foldl_cons, hs]
      simp [Scheduler.discard, Machine.watched, Watched.write, discards]

/-- The end of every thread. -/
theorem abortAll (m : Machine σ φ α κ) (o : Custody (Watched σ φ α) (Numbered κ)) :
    ∃ new, Step new [] o (act m.watched o .abortAll) := by
  have hall : ∃ s, Scheduler.abortAll m.watched o.scheduler o.state =
      ({ o.scheduler with threads := [] },
        ⟨s, o.state.requests ++ (o.scheduler.threads.flatMap discards ++ [.collectFull]),
          o.state.prepared⟩) := by
    unfold Scheduler.abortAll
    dsimp only
    split
    · obtain ⟨s, hs⟩ := exists_foldl_discard m o.scheduler.threads o.state
      exact ⟨m.collectFull s, by rw [hs, ← List.append_assoc]; rfl⟩
    · obtain ⟨s, hs⟩ := exists_foldl_discard m o.scheduler.threads
        (m.watched.note ⟨.debug,
          s!"aborting {o.scheduler.threads.length} script thread(s)"⟩ o.state)
      exact ⟨m.collectFull s, by rw [hs, ← List.append_assoc]; rfl⟩
  obtain ⟨s, hs⟩ := hall
  refine ⟨o.scheduler.threads.flatMap discards ++ [.collectFull], ?_⟩
  simp only [act, hs]
  refine ⟨rfl, rfl, ?_, rfl, rfl, rfl, ⟨[], rfl, List.nil_sublist _⟩, ?_, fun _ hid => .inl hid, ?_,
    ?_⟩
  · rw [Request.prepared_append, prepared_flatMap_discards]
    rfl
  · rw [Custody.held, Custody.held, Request.recycled_append, Request.recycled_append,
      recycled_flatMap_discards, List.perm_iff_count]
    intro n
    simp only [live, Request.recycled, List.filterMap_cons, List.filterMap_nil, List.map_nil,
      List.nil_append, List.count_append, List.length_nil, List.range'_zero, List.append_nil]
    omega
  · intro before n now deadline state after heq
    have hmem : .resume n now deadline state ∈
        o.scheduler.threads.flatMap discards ++ [(.collectFull : Request φ α)] := by simp [heq]
    simp [discards] at hmem
  · intro r hr n hends
    refine ⟨?_, by simp [live]⟩
    rcases List.mem_append.1 hr with hr | hr
    · obtain ⟨t, ht, hr⟩ := List.mem_flatMap.1 hr
      have hn : n = t.context.number := by
        rcases List.mem_pair.1 hr with rfl | rfl
        · exact Eq.symm hends
        · exact Eq.symm hends
      exact hn ▸ List.mem_map_of_mem ht
    · obtain rfl := List.mem_singleton.1 hr
      exact hends.elim

/-- A retained context is taken, if there is one. -/
theorem take (m : Machine σ φ α κ) (o : Custody (Watched σ φ α) (Numbered κ)) (id : Nat) :
    Step [] [] o (act m.watched o (.take id)) where
  requests := (List.append_nil _).symm
  prepared := rfl
  newly := rfl
  nextId := rfl
  ids := rfl
  numbers := rfl
  threads := ⟨o.scheduler.threads, (List.append_nil _).symm, .refl _⟩
  held := by
    rw [List.length_nil, List.range'_zero, List.append_nil, Custody.held, Custody.held]
    refine .append_left _ ?_
    simp only [act, Scheduler.takeRetained, List.map_append]
    cases hget : o.scheduler.retained[id]? with
    | none =>
        rw [erase_eq_self hget]
        simp
    | some c =>
        have hcount := (stored_erase hget).count_eq
        rw [List.perm_iff_count]
        intro n
        have hn := hcount n
        simp only [Option.toList_some, List.map_cons, List.map_nil, List.count_append,
          List.count_cons, List.count_nil] at hn ⊢
        omega
  retained := fun _ hid => .inl (Std.ExtTreeMap.mem_of_mem_erase hid)
  resumes := by simp
  ends := by simp

end Step

/-- Every action is a step. -/
theorem exists_step (m : Machine σ φ α κ) {o : Custody (Watched σ φ α) (Numbered κ)} (ho : Held o)
    (a : Action σ φ α) : ∃ new created, Step new created o (act m.watched o a.watched) := by
  cases a with
  | create function args keepAlive =>
      obtain ⟨x, -, hcreates, -⟩ :=
        Scheduler.exists_creates_createThread m function args keepAlive o.scheduler o.state
      exact ⟨_, _, .creates hcreates⟩
  | turn index =>
      cases hget : o.scheduler.threads[index]? with
      | none =>
          have hturn : Scheduler.turn m.watched index o.scheduler o.state = none := by
            simp only [Scheduler.turn, hget]
          simp only [Action.watched, act, hturn]
          exact ⟨[], [], .quiet o o.state.state⟩
      | some t =>
          obtain ⟨v, sch, w, hturn, hv⟩ := Scheduler.exists_visit m hget o.state
          simp only [Action.watched, act, hturn]
          exact ⟨_, _, .visit hv ho⟩
  | abortAll =>
      obtain ⟨new, hstep⟩ := Step.abortAll m o
      exact ⟨new, [], hstep⟩
  | take id => exact ⟨[], [], .take m o id⟩
  | elsewhere change => exact ⟨[], [], .quiet o _⟩

/-- What holds of a new scheduler and is preserved by every action holds after any actions. -/
theorem run_held (m : Machine σ φ α κ) (watchdog : Watchdog) (s : σ)
    (actions : List (Action σ φ α)) :
    Held (run m.watched watchdog (Watched.start s) (actions.map Action.watched)) := by
  have hfold : ∀ o : Custody (Watched σ φ α) (Numbered κ), Held o →
      Held ((actions.map Action.watched).foldl (act m.watched) o) := by
    induction actions with
    | nil => exact fun o ho => ho
    | cons a actions ih =>
        intro o ho
        obtain ⟨new, created, hstep⟩ := exists_step m ho a
        exact ih _ (ho.step hstep)
  exact hfold _ (.start watchdog s)

/-! ## Any sequence of actions -/

/-- A tick that ends is one turn after the other. -/
theorem exists_turns_of_runs {m : Machine σ φ α κ} {index : Nat} {sch : Scheduler κ} {s : σ}
    {r : Scheduler κ × σ} (h : Scheduler.Runs m index sch s r) (taken : List κ) :
    ∃ indices : List Nat,
      (indices.map Action.turn).foldl (act m) ⟨sch, s, taken⟩ = ⟨r.1, r.2, taken⟩ := by
  induction h with
  | done hturn => exact ⟨[], rfl⟩
  | @more index index' sch sch' s s' r hturn _ ih =>
      obtain ⟨indices, hrest⟩ := ih
      refine ⟨index :: indices, ?_⟩
      have hact : act m ⟨sch, s, taken⟩ (.turn index : Action σ φ α) = ⟨sch', s', taken⟩ := by
        simp only [act, hturn]
      rw [List.map_cons, List.foldl_cons, hact]
      exact hrest

/-- An action resumes no context but one of a live thread. -/
theorem live_of_resumed (m : Machine σ φ α κ) {o : Custody (Watched σ φ α) (Numbered κ)}
    (ho : Held o) (a : Action σ φ α) {n now : Nat} {deadline : Deadline} {state : ContextState}
    (hmem : .resume n now deadline state ∈
      (act m.watched o a.watched).state.requests.drop o.state.requests.length) : n ∈ o.live := by
  obtain ⟨new, created, hstep⟩ := exists_step m ho a
  rw [hstep.requests, List.drop_left] at hmem
  obtain ⟨before, after, heq⟩ := List.append_of_mem hmem
  exact (hstep.resumes _ _ _ _ _ _ heq).2

/-- A number that a thread has had is never given to another. -/
theorem exists_of_id_lt (m : Machine σ φ α κ) (actions : List (Action σ φ α))
    {o : Custody (Watched σ φ α) (Numbered κ)} (ho : Held o) {t : Thread (Numbered κ)}
    (ht : t ∈ ((actions.map Action.watched).foldl (act m.watched) o).scheduler.threads)
    (hlt : t.id < o.scheduler.nextId) :
    ∃ t' ∈ o.scheduler.threads, t'.id = t.id ∧ t'.context.number = t.context.number := by
  induction actions generalizing o with
  | nil => exact ⟨t, ht, rfl, rfl⟩
  | cons a actions ih =>
      obtain ⟨new, created, hstep⟩ := exists_step m ho a
      have hlt' : t.id < (act m.watched o a.watched).scheduler.nextId := by
        rw [hstep.nextId]
        exact Nat.lt_add_right _ hlt
      obtain ⟨t', ht', hid, hnumber⟩ := ih (ho.step hstep) ht hlt'
      rcases Held.id_of_step hstep ht' with ⟨t'', ht'', hid', hnumber'⟩ | ⟨hge, -⟩
      · exact ⟨t'', ht'', hid'.trans hid, hnumber'.trans hnumber⟩
      · rw [hid] at hge
        exact absurd hlt (Nat.not_lt.2 hge)

/-- After any actions with any machine, every context that has been prepared is in one place and in
it once: with a live thread, among the retained ones, with whoever has taken it, or back at the
machine. A context is resumed only while it belongs to a live thread; it has then been prepared, no
resume of it has ended other than suspended, and it has been neither aborted nor given back. -/
theorem contexts_have_one_place (m : Machine σ φ α κ) (watchdog : Watchdog) (s : σ)
    (actions : List (Action σ φ α)) :
    let o := run m.watched watchdog (Watched.start s) (actions.map Action.watched)
    run m watchdog s actions = o.bare ∧
    Request.prepared o.state.requests = List.range o.state.prepared ∧
    (o.live ++ (stored o.scheduler.retained ++
      (o.taken.map (·.number) ++ Request.recycled o.state.requests))).Perm
        (List.range o.state.prepared) ∧
    Request.Orderly o.state.requests ∧
    (∀ (a : Action σ φ α) (n now : Nat) (deadline : Deadline) (state : ContextState),
      .resume n now deadline state ∈
        (act m.watched o a.watched).state.requests.drop o.state.requests.length → n ∈ o.live) ∧
    (∀ r, Scheduler.Runs m.watched 0 o.scheduler o.state r →
      Scheduler.tick m.watched o.scheduler o.state = r ∧
      ∃ indices : List Nat,
        (indices.map fun i => Action.watched (.turn i)).foldl (act m.watched) o =
          { o with scheduler := r.1, state := r.2 }) := by
  intro o
  have ho : Held o := run_held m watchdog s actions
  refine ⟨run_watched m watchdog s actions, ho.prepared, ho.held, ho.orderly, ?_, ?_⟩
  · intro a n now deadline state hmem
    exact live_of_resumed m ho a hmem
  · intro r hruns
    exact ⟨hruns.resumeFrom_eq, exists_turns_of_runs hruns o.taken⟩

/-- Three threads that end at once and one that waits. The contexts of the first two are kept, and
one of these is taken. -/
def troupe : List (Action Puppet.Theatre (Option String) Int) :=
  [.create (some "ends") none true, .create (some "ends") none true,
    .create (some "ends") none false, .create (some "waits") none false,
    .turn 0, .turn 0, .turn 0, .turn 0, .take 1]

/-- Of four contexts there is one in every place, and the next tick resumes the one that is live. -/
theorem contexts_have_one_place_troupe :
    let o := run Puppet.machine.watched ⟨100⟩
      (Watched.start (.opening [("ends", []), ("waits", [.stop .suspended, .stop .suspended])]))
      (troupe.map Action.watched)
    o.live = [3] ∧ stored o.scheduler.retained = [1] ∧ o.taken.map (·.number) = [0] ∧
      Request.recycled o.state.requests = [2] ∧ [3, 1, 0, 2].Perm (List.range o.state.prepared) ∧
      Request.Orderly o.state.requests ∧
      ∃ deadline r, .resume 3 0 deadline .suspended ∈
          (act Puppet.machine.watched o (Action.turn 0).watched).state.requests.drop
            o.state.requests.length ∧ 3 ∈ o.live ∧
        Scheduler.Runs Puppet.machine.watched 0 o.scheduler o.state r ∧
        Scheduler.tick Puppet.machine.watched o.scheduler o.state = r := by
  obtain ⟨-, -, hplaces, horderly, hresumed, htick⟩ := contexts_have_one_place Puppet.machine ⟨100⟩
    (.opening [("ends", []), ("waits", [.stop .suspended, .stop .suspended])]) troupe
  intro o
  have hmem : .resume 3 0 ⟨100⟩ .suspended ∈
      (act Puppet.machine.watched o (Action.turn 0).watched).state.requests.drop
        o.state.requests.length := List.mem_of_mem_head? rfl
  have hruns : Scheduler.Runs Puppet.machine.watched 0 o.scheduler o.state _ :=
    .more rfl (.done rfl)
  exact ⟨rfl, rfl, rfl, rfl, hplaces, horderly, _, _, hmem, hresumed _ _ _ _ _ hmem, hruns,
    (htick _ hruns).1⟩

/-- A tick that ends resumes the threads that it finds, in the order of their creation, and then
those that scripts ask for on the way, in the order in which they are asked for. With the contexts
numbered in this order, it resumes them one after the other, each once, with a deadline one budget
after the time at the start of its resume, and after each resume the machine is asked to collect.
The threads whose resume has ended suspended are left, in their order. A request that fails creates
nothing. The numbers of the threads rise, and none is given twice. -/
theorem tick_visits_each_once (m : Machine σ φ α κ) :
    (∀ (sch : Scheduler κ) (s : σ) (r : Scheduler κ × σ), Scheduler.Runs m 0 sch s r →
      Scheduler.tick m sch s = r ∧
      ∃ (vs : List (Visit φ α κ)) (sch' : Scheduler (Numbered κ)) (w' : Watched σ φ α),
        Scheduler.Runs m.watched 0 sch.numbered ⟨s, [], sch.threads.length⟩ (sch', w') ∧
        r = (sch'.bare, w'.state) ∧ Ticked vs sch.numbered ⟨s, [], sch.threads.length⟩ sch' w' ∧
        vs.map (·.thread.context.number) = List.range vs.length ∧
        (∀ v ∈ vs, ∀ now, v.deadline.isExpired now = decide (v.now + sch.watchdog.budget ≤ now)) ∧
        r.1.size = vs.countP Visit.stays) ∧
    (∀ (function : φ) (args : Option α) (keepAlive : Bool) (sch : Scheduler κ) (s : σ) (e),
      (m.prepare function args s).1 = .error e →
        (Scheduler.createThread m function args keepAlive sch s).1 = none ∧
        (Scheduler.createThread m function args keepAlive sch s).2.1 = sch) ∧
    (∀ (watchdog : Watchdog) (s : σ) (actions more : List (Action σ φ α)),
      ((run m watchdog s actions).scheduler.threads.map (·.id)).Pairwise (· < ·) ∧
      let o := run m.watched watchdog (Watched.start s) (actions.map Action.watched)
      let o' := run m.watched watchdog (Watched.start s) ((actions ++ more).map Action.watched)
      ∀ t' ∈ o'.scheduler.threads, t'.id < o.scheduler.nextId →
        ∃ t ∈ o.scheduler.threads, t.id = t'.id ∧ t.context.number = t'.context.number) := by
  refine ⟨?_, ?_, ?_⟩
  · intro sch s r hruns
    have hbare : Scheduler.Runs m 0 sch.numbered.bare s r := by rwa [Scheduler.bare_numbered]
    -- the tick ends over the watched machine, too, which has written its requests down
    obtain ⟨sch', w', hwatched, rfl⟩ :=
      hbare.exists_watched (w := (⟨s, [], sch.threads.length⟩ : Watched σ φ α))
    obtain ⟨vs, hvs⟩ := Round.exists_ticked hwatched (.nil _ _)
    refine ⟨hruns.resumeFrom_eq, vs, sch', w', hwatched, rfl, hvs, ?_, ?_, ?_⟩
    · exact hvs.numbers_eq_range sch.numbers_numbered
    · intro v hv now
      rw [hvs.deadline v hv, Deadline.isExpired_arm]
      rfl
    · show sch'.bare.threads.length = _
      rw [Scheduler.bare, List.length_map, hvs.left, Visit.length_filterMap_stay?]
  · intro function args keepAlive sch s e hfails
    rcases hprepare : m.prepare function args s with ⟨result, s'⟩
    rw [hprepare] at hfails
    obtain rfl : result = .error e := hfails
    simp only [Scheduler.createThread, hprepare]
    exact ⟨trivial, trivial⟩
  · intro watchdog s actions more
    have ho : Held _ := run_held m watchdog s actions
    refine ⟨?_, ?_⟩
    · rw [run_watched]
      have hids := ho.ids
      simpa [bare, Scheduler.bare, Thread.bare, Function.comp_def] using hids
    · intro o o' t' ht' hlt
      refine exists_of_id_lt m more ho ?_ hlt
      simpa [o', run, List.foldl_append] using ht'

/-- The scripts of two threads. The first asks for a third and for one that there is no script for,
and ends. -/
def duoTheatre : Puppet.Theatre :=
  .opening [("asks", [.spawn (some "waits") none, .spawn none none]), ("waits", [.stop .suspended])]

/-- The creation of the two threads. -/
def duoCreated : List (Action Puppet.Theatre (Option String) Int) :=
  [.create (some "asks") none true, .create (some "waits") none false]

theorem tick_visits_each_once_duo :
    let duo := run Puppet.machine ⟨100⟩ duoTheatre duoCreated
    let o := run Puppet.machine.watched ⟨100⟩ (Watched.start duoTheatre)
      (duoCreated.map Action.watched)
    let o' := run Puppet.machine.watched ⟨100⟩ (Watched.start duoTheatre)
      ((duoCreated ++ [Action.turn 0]).map Action.watched)
    (∃ (r : Scheduler Puppet.Context × Puppet.Theatre)
      (vs : List (Visit (Option String) Int Puppet.Context))
      (sch' : Scheduler (Numbered Puppet.Context))
      (w' : Watched Puppet.Theatre (Option String) Int),
      Scheduler.Runs Puppet.machine 0 duo.scheduler duo.state r ∧
      Scheduler.tick Puppet.machine duo.scheduler duo.state = r ∧ r = (sch'.bare, w'.state) ∧
      Ticked vs duo.scheduler.numbered ⟨duo.state, [], 2⟩ sch' w' ∧
      vs.map (·.thread.context.number) = List.range vs.length ∧
      r.1.threads.map (·.id) = [2, 3] ∧ vs.countP Visit.stays = 2) ∧
    (∃ e, (Puppet.machine.prepare none none duo.state).1 = .error e ∧
      (Scheduler.createThread Puppet.machine none none false duo.scheduler duo.state).2.1 =
        duo.scheduler) ∧
    (∃ t' ∈ o'.scheduler.threads, t'.id < o.scheduler.nextId ∧
      ∃ t ∈ o.scheduler.threads, t.id = t'.id ∧ t.context.number = t'.context.number) := by
  obtain ⟨htick, hfails, hids⟩ := tick_visits_each_once Puppet.machine
  intro duo o o'
  refine ⟨?_, ?_, ?_⟩
  · have hruns : ∃ r, Scheduler.Runs Puppet.machine 0 duo.scheduler duo.state r ∧
        r.1.threads.map (·.id) = [2, 3] := ⟨_, .more rfl (.more rfl (.more rfl (.done rfl))), rfl⟩
    obtain ⟨r, hruns, hleft⟩ := hruns
    obtain ⟨heq, vs, sch', w', -, hr, hvs, hnumbers, -, hsize⟩ :=
      htick duo.scheduler duo.state r hruns
    have hcount : r.1.size = 2 := by
      rw [Scheduler.size, ← List.length_map (f := fun t : Thread Puppet.Context => t.id), hleft]
      rfl
    exact ⟨r, vs, sch', w', hruns, heq, hr, hvs, hnumbers, hleft, hsize.symm.trans hcount⟩
  · have hnone : (Puppet.machine.prepare none none duo.state).1 =
        .error (.invalidFunction "nil") := rfl
    exact ⟨_, hnone, (hfails none none false duo.scheduler duo.state _ hnone).2⟩
  · -- the second thread, after the turn of the first
    have hsecond : ∃ t ts, o'.scheduler.threads = t :: ts ∧ t.id = 2 := ⟨_, _, rfl, rfl⟩
    obtain ⟨t', ts, hthreads, hid⟩ := hsecond
    have ht' : t' ∈ o'.scheduler.threads := hthreads ▸ List.mem_cons_self
    have hlt : t'.id < o.scheduler.nextId := by
      rw [hid]
      exact Nat.lt_succ_self 2
    exact ⟨t', ht', hlt, (hids ⟨100⟩ duoTheatre duoCreated [.turn 0]).2 t' ht' hlt⟩

end Custody

end Cutscene
