import Cutscene.Proofs.Session.Attending

/-!
# What deeds tell

Two things can be read from what is written down of the scripts of a session. For the threads: what
a scheduler asks of its machine says which threads it can resume (`Deed.Handles`), and a scheduler
that has just been made has none, so the threads that are resumed are of the scripts of the present
scene (`Deed.Settled`). For what is to be called: an attempt is to call what was asked for first,
and a scene that is entered puts an end to all that was asked for before (`Deed.waiting?`).
-/

namespace Cutscene

namespace Deed

/-! ## What is written down -/

@[simp] theorem asks_append (ds es : List Deed) : asks (ds ++ es) = asks ds ++ asks es :=
  List.filterMap_append

@[simp] theorem tries_append (ds es : List Deed) : tries (ds ++ es) = tries ds ++ tries es :=
  List.filterMap_append

/-- A thread of the scripts of the present scene: it has been created since a scene was entered
last. -/
def Current (ds : List Deed) (thread : ℕ) : Prop :=
  .created thread ∈ ds ∧ ∀ before after, ds = before ++ .entered :: after →
    .created thread ∈ after ∧ .created thread ∉ before

/-- The threads that are resumed after a scene has been entered have been created after it, too. -/
def Isolated (ds : List Deed) : Prop :=
  ∀ before after, ds = before ++ .entered :: after → ∀ thread, .resumed thread ∈ after →
    .created thread ∈ after ∧ .created thread ∉ before

variable {ds es before after : List Deed} {thread : ℕ}

/-- When no scene is entered later, a scene was entered earlier. -/
theorem exists_of_append_eq (hes : .entered ∉ es) (h : ds ++ es = before ++ .entered :: after) :
    ∃ after', ds = before ++ .entered :: after' ∧ after = after' ++ es := by
  rcases List.append_eq_append_iff.1 h with ⟨between, -, hbetween⟩ | ⟨between, hds, hbetween⟩
  · exact absurd (hbetween ▸ List.mem_append_right between List.mem_cons_self) hes
  · cases between with
    | nil =>
        rw [List.nil_append] at hbetween
        exact absurd (hbetween ▸ List.mem_cons_self) hes
    | cons d after' =>
        obtain ⟨rfl, rfl⟩ := List.cons.inj hbetween
        exact ⟨after', hds, rfl⟩

theorem Current.append (h : Current ds thread) (hes : .entered ∉ es) :
    Current (ds ++ es) thread := by
  refine ⟨List.mem_append_left es h.1, ?_⟩
  intro before after heq
  obtain ⟨after', hds, rfl⟩ := exists_of_append_eq hes heq
  obtain ⟨hafter, hbefore⟩ := h.2 before after' hds
  exact ⟨List.mem_append_left es hafter, hbefore⟩

/-- A thread that is new is one of the present scene. -/
theorem current_of_created (hnew : .created thread ∉ ds) (hcreated : .created thread ∈ es)
    (hes : .entered ∉ es) : Current (ds ++ es) thread := by
  refine ⟨List.mem_append_right ds hcreated, ?_⟩
  intro before after heq
  obtain ⟨after', rfl, rfl⟩ := exists_of_append_eq hes heq
  exact ⟨List.mem_append_right after' hcreated,
    fun hbefore => hnew (List.mem_append_left _ hbefore)⟩

theorem Isolated.append (h : Isolated ds) (hes : .entered ∉ es)
    (hresumed : ∀ thread, .resumed thread ∈ es → Current (ds ++ es) thread) :
    Isolated (ds ++ es) := by
  intro before after heq thread hthread
  obtain ⟨after', hds, hafter⟩ := exists_of_append_eq hes heq
  rw [hafter] at hthread
  rcases List.mem_append.1 hthread with hthread | hthread
  · obtain ⟨hin, hout⟩ := h before after' hds thread hthread
    rw [hafter]
    exact ⟨List.mem_append_left es hin, hout⟩
  · exact (hresumed thread hthread).2 before after heq

/-- Nothing is resumed at the moment in which a scene is entered. -/
theorem Isolated.enter (h : Isolated ds) : Isolated (ds ++ [.entered]) := by
  intro before after heq thread hthread
  rcases List.eq_nil_or_concat after with rfl | ⟨after', d, rfl⟩
  · cases hthread
  · have hsplit : ds ++ [.entered] = (before ++ .entered :: after') ++ [d] := by
      rw [heq, List.concat_eq_append, List.append_assoc, List.cons_append]
    obtain ⟨hds, hd⟩ := List.append_inj' hsplit rfl
    obtain rfl := List.singleton_inj.1 hd
    rw [List.concat_eq_append] at hthread ⊢
    rcases List.mem_append.1 hthread with hthread | hthread
    · obtain ⟨hin, hout⟩ := h before after' hds thread hthread
      exact ⟨List.mem_append_left _ hin, hout⟩
    · cases List.mem_singleton.1 hthread

/-! ## Threads -/

/-- What comes of threads with some numbers while a machine is asked for some things: only they and
those that are created on the way are resumed and can be left, and what is created has numbers that
nobody had. -/
structure Handles (alive : List ℕ) (created : ℕ) (ds : List Deed) (alive' : List ℕ)
    (created' : ℕ) : Prop where
  le : created ≤ created'
  created : ∀ thread, .created thread ∈ ds → created ≤ thread ∧ thread < created'
  resumed : ∀ thread, .resumed thread ∈ ds → thread ∈ alive ∨ .created thread ∈ ds
  alive : ∀ thread ∈ alive', thread ∈ alive ∨ .created thread ∈ ds

theorem Handles.refl (alive : List ℕ) (created : ℕ) (hcreated : ∀ n, .created n ∉ ds)
    (hresumed : ∀ n, .resumed n ∉ ds) : Handles alive created ds alive created where
  le := le_rfl
  created n h := absurd h (hcreated n)
  resumed n h := absurd h (hresumed n)
  alive _ h := .inl h

theorem Handles.trans {alive alive' alive'' : List ℕ} {created created' created'' : ℕ}
    (h : Handles alive created ds alive' created')
    (h' : Handles alive' created' es alive'' created'') :
    Handles alive created (ds ++ es) alive'' created'' where
  le := h.le.trans h'.le
  created n hn := by
    rcases List.mem_append.1 hn with hn | hn
    · exact ⟨(h.created n hn).1, (h.created n hn).2.trans_le h'.le⟩
    · exact ⟨h.le.trans (h'.created n hn).1, (h'.created n hn).2⟩
  resumed n hn := by
    rcases List.mem_append.1 hn with hn | hn
    · exact (h.resumed n hn).imp_right (List.mem_append_left es)
    · rcases h'.resumed n hn with hthere | hnew
      · exact (h.alive n hthere).imp_right (List.mem_append_left es)
      · exact .inr (List.mem_append_right ds hnew)
  alive n hn := by
    rcases h'.alive n hn with hthere | hnew
    · exact (h.alive n hthere).imp_right (List.mem_append_left es)
    · exact .inr (List.mem_append_right ds hnew)

/-- What is known of threads with some numbers after some deeds: all of them are of the present
scene, and no thread of an earlier one has been resumed. -/
structure Settled (alive : List ℕ) (created : ℕ) (ds : List Deed) : Prop where
  created_lt : ∀ thread, .created thread ∈ ds → thread < created
  current : ∀ thread ∈ alive, Current ds thread
  isolated : Isolated ds

theorem Settled.append {alive alive' : List ℕ} {created created' : ℕ}
    (h : Settled alive created ds) (hes : .entered ∉ es)
    (hhandles : Handles alive created es alive' created') :
    Settled alive' created' (ds ++ es) := by
  have hcurrent : ∀ n, n ∈ alive ∨ .created n ∈ es → Current (ds ++ es) n := by
    rintro n (hthere | hnew)
    · exact (h.current n hthere).append hes
    · -- a number that is given now is above all that were given before
      refine current_of_created (fun hold => ?_) hnew hes
      exact absurd (h.created_lt n hold) (hhandles.created n hnew).1.not_gt
  refine ⟨?_, fun n hn => hcurrent n (hhandles.alive n hn),
    h.isolated.append hes fun n hn => hcurrent n (hhandles.resumed n hn)⟩
  intro n hn
  rcases List.mem_append.1 hn with hold | hnew
  · exact (h.created_lt n hold).trans_le hhandles.le
  · exact (hhandles.created n hnew).2

/-- Whoever enters a scene leaves all threads behind. -/
theorem Settled.enter {alive : List ℕ} {created : ℕ} (h : Settled alive created ds) :
    Settled [] created (ds ++ [.entered]) := by
  refine ⟨?_, fun _ hn => absurd hn List.not_mem_nil, h.isolated.enter⟩
  intro n hn
  rcases List.mem_append.1 hn with hold | hnew
  · exact h.created_lt n hold
  · cases List.mem_singleton.1 hnew

/-! ## Requests -/

/-- What is still to be called after a deed. Nothing is to be called any more when a scene has been
entered, and only what was asked for first can be called. -/
def wait? : List String → Deed → Option (List String)
  | _, .entered => some []
  | names, .asked name => some (names ++ [name])
  | name :: names, .tried name' _ => if name' = name then some names else none
  | [], .tried _ _ => none
  | names, .created _ => some names
  | names, .resumed _ => some names

/-- What is still to be called after some deeds, if each attempt was to call what was asked for
first. -/
def waiting? (ds : List Deed) : Option (List String) := ds.foldlM wait? []

theorem waiting?_append (ds es : List Deed) :
    waiting? (ds ++ es) = (waiting? ds).bind fun names => es.foldlM wait? names :=
  List.foldlM_append

/-- Scripts put what they ask for behind what is still to be called. -/
theorem foldlM_wait?_of_tries (hes : .entered ∉ es) (htries : tries es = []) (names : List String) :
    es.foldlM wait? names = some (names ++ asks es) := by
  induction es generalizing names with
  | nil => exact congrArg some (List.append_nil names).symm
  | cons d es ih =>
      have hrest := ih (fun h => hes (List.mem_cons_of_mem d h))
      cases d with
      | entered => exact absurd List.mem_cons_self hes
      | asked name =>
          rw [List.foldlM_cons]
          refine (hrest htries _).trans (congrArg some ?_)
          exact List.append_assoc _ _ _
      | tried name event? => cases htries
      | created n => exact hrest htries names
      | resumed n => exact hrest htries names

/-- One attempt for each of them, in order, leaves nothing to be called. -/
theorem foldlM_wait?_tried (ts : List (String × Option Event)) :
    (ts.map fun t => .tried t.1 t.2).foldlM wait? (ts.map Prod.fst) = some [] := by
  induction ts with
  | nil => rfl
  | cons t ts ih =>
      rw [List.map_cons, List.map_cons, List.foldlM_cons, wait?, if_pos rfl]
      exact ih

/-! ## What is asked of the machine -/

variable {φ α : Type}

theorem created_mem_iff {rs : List (Machine.Request φ α)} :
    .created thread ∈ rs.filterMap ofRequest? ↔
      ∃ function args, .prepare function args (some thread) ∈ rs := by
  rw [List.mem_filterMap]
  constructor
  · rintro ⟨r, hr, hdeed⟩
    cases r with
    | prepare function args context =>
        cases context with
        | none => cases hdeed
        | some n =>
            cases hdeed
            exact ⟨function, args, hr⟩
    | _ => cases hdeed
  · rintro ⟨function, args, hr⟩
    exact ⟨_, hr, rfl⟩

theorem resumed_mem_iff {rs : List (Machine.Request φ α)} :
    .resumed thread ∈ rs.filterMap ofRequest? ↔
      ∃ now deadline state, .resume thread now deadline state ∈ rs := by
  rw [List.mem_filterMap]
  constructor
  · rintro ⟨r, hr, hdeed⟩
    cases r with
    | prepare function args context => cases context <;> cases hdeed
    | resume n now deadline state =>
        cases hdeed
        exact ⟨now, deadline, state, hr⟩
    | _ => cases hdeed
  · rintro ⟨now, deadline, state, hr⟩
    exact ⟨_, hr, rfl⟩

/-- Requests to the machine neither enter a scene nor ask for events or call them. -/
theorem ofRequest?_cases {r : Machine.Request φ α} {d : Deed}
    (h : ofRequest? r = some d) :
    (∃ thread, d = .created thread) ∨ ∃ thread, d = .resumed thread := by
  cases r with
  | prepare function args context =>
      cases context with
      | none => cases h
      | some thread => exact .inl ⟨thread, (Option.some.inj h).symm⟩
  | resume thread now deadline state => exact .inr ⟨thread, (Option.some.inj h).symm⟩
  | _ => cases h

/-- The machine is not asked to call an event. -/
theorem asks_ofRequest? (rs : List (Machine.Request φ α)) :
    asks (rs.filterMap ofRequest?) = [] := by
  refine List.filterMap_eq_nil_iff.2 fun d hd => ?_
  obtain ⟨r, -, hr⟩ := List.mem_filterMap.1 hd
  rcases ofRequest?_cases hr with ⟨n, rfl⟩ | ⟨n, rfl⟩ <;> rfl

theorem asks_map_asked (names : List String) : asks (names.map .asked) = names := by
  rw [asks, List.filterMap_map]
  exact List.filterMap_some

end Deed

namespace Scheduler

/-- The numbers of the live threads. -/
def numbers {κ : Type} (sch : Scheduler (Numbered κ)) : List ℕ :=
  sch.threads.map (·.context.number)

end Scheduler

open Deed

section

variable {σ φ α κ : Type} {sch sch' : Scheduler (Numbered κ)} {w w' : Watched σ φ α}

/-- On a visit those threads are created that it says, and no other. -/
theorem Visit.prepare_mem_iff {v : Visit φ α κ}
    {thread : ℕ} : (∃ function args, .prepare function args (some thread) ∈ v.requests) ↔
      ∃ t ∈ v.created, t.context.number = thread := by
  have hprepare : ∀ function args, .prepare function args (some thread) ∈ v.requests ↔
      ∃ x ∈ v.spawns, x.prepare = .prepare function args (some thread) := by
    intro function args
    simp [Visit.requests, Visit.farewell]
  constructor
  · rintro ⟨function, args, h⟩
    obtain ⟨x, hx, heq⟩ := (hprepare function args).1 h
    obtain ⟨-, -, hthread⟩ := Machine.Request.prepare.inj heq
    obtain ⟨t, ht, hnumber⟩ := Option.map_eq_some_iff.1 hthread
    exact ⟨t, List.mem_filterMap.2 ⟨x, hx, ht⟩, hnumber⟩
  · rintro ⟨t, ht, rfl⟩
    obtain ⟨x, hx, ht⟩ := List.mem_filterMap.1 ht
    refine ⟨x.request.function, x.request.args, (hprepare _ _).2 ⟨x, hx, ?_⟩⟩
    rw [Spawn.prepare, ht, Option.map_some]

theorem Visit.number_of_resume_mem {v : Visit φ α κ}
    {thread now : ℕ} {deadline : Deadline} {state : ContextState}
    (h : .resume thread now deadline state ∈ v.requests) : v.thread.context.number = thread := by
  have hresume : thread = v.thread.context.number ∧ now = v.now ∧ deadline = v.deadline ∧
      state = v.state := by
    simpa [Visit.requests, Visit.farewell, Spawn.prepare] using h
  exact hresume.1.symm

namespace Ticked

variable {vs : List (Visit φ α κ)}

theorem created_mem_iff (h : Ticked vs sch w sch' w') (hw : w.requests = []) {thread : ℕ} :
    .created thread ∈ w'.requests.filterMap ofRequest? ↔
      ∃ t ∈ vs.flatMap Visit.created, t.context.number = thread := by
  rw [h.requests, hw, List.nil_append, Deed.created_mem_iff]
  constructor
  · rintro ⟨function, args, hmem⟩
    obtain ⟨v, hv, hmem⟩ := List.mem_flatMap.1 hmem
    obtain ⟨t, ht, hnumber⟩ := Visit.prepare_mem_iff.1 ⟨function, args, hmem⟩
    exact ⟨t, List.mem_flatMap.2 ⟨v, hv, ht⟩, hnumber⟩
  · rintro ⟨t, ht, hnumber⟩
    obtain ⟨v, hv, ht⟩ := List.mem_flatMap.1 ht
    obtain ⟨function, args, hmem⟩ := Visit.prepare_mem_iff.2 ⟨t, ht, hnumber⟩
    exact ⟨function, args, List.mem_flatMap.2 ⟨v, hv, hmem⟩⟩

/-- A thread that is visited was there before or has been created on the way. -/
theorem visited_cases (h : Ticked vs sch w sch' w') (hw : w.requests = [])
    {v : Visit φ α κ} (hv : v ∈ vs) :
    v.thread.context.number ∈ sch.numbers ∨
      .created v.thread.context.number ∈ w'.requests.filterMap ofRequest? := by
  have hmem : v.thread ∈ sch.threads ++ vs.flatMap Visit.created := by
    rw [← h.visited]
    exact List.mem_map_of_mem hv
  rcases List.mem_append.1 hmem with hthere | hcreated
  · exact .inl (List.mem_map_of_mem hthere)
  · exact .inr ((h.created_mem_iff hw).2 ⟨_, hcreated, rfl⟩)

/-- A tick resumes the threads that it finds and those that it creates. -/
theorem handles (h : Ticked vs sch w sch' w') (hw : w.requests = []) :
    Handles sch.numbers w.prepared (w'.requests.filterMap ofRequest?) sch'.numbers w'.prepared where
  le := by
    rw [h.prepared]
    exact Nat.le_add_right _ _
  created := by
    intro thread hthread
    obtain ⟨t, ht, rfl⟩ := (h.created_mem_iff hw).1 hthread
    have hnumber := List.mem_map_of_mem (f := fun t => t.context.number) ht
    rw [h.numbers, List.mem_range'_1] at hnumber
    rw [h.prepared]
    exact hnumber
  resumed := by
    intro thread hthread
    obtain ⟨now, deadline, state, hmem⟩ := resumed_mem_iff.1 hthread
    rw [h.requests, hw, List.nil_append] at hmem
    obtain ⟨v, hv, hmem⟩ := List.mem_flatMap.1 hmem
    obtain rfl := Visit.number_of_resume_mem hmem
    exact h.visited_cases hw hv
  alive := by
    intro thread hthread
    obtain ⟨t, ht, rfl⟩ := List.mem_map.1 hthread
    rw [h.left] at ht
    obtain ⟨v, hv, hstay⟩ := List.mem_filterMap.1 ht
    have hresumed : v.resumed = t := by
      unfold Visit.stay? at hstay
      split at hstay
      · exact Option.some.inj hstay
      · cases hstay
    rw [← hresumed]
    exact h.visited_cases hw hv

end Ticked

end

/-- Of scripts that begin, only the entry thread is left. -/
theorem SceneScripts.handles_watchedBegin [Interpreter] (watchdog : Watchdog)
    {w : Watched Interpreter.State Interpreter.Function Interpreter.Argument}
    (hw : w.requests = []) :
    let r := watchedBegin watchdog w
    Handles [] w.prepared (r.2.requests.filterMap ofRequest?) r.1.numbers r.2.prepared := by
  unfold watchedBegin
  dsimp only
  split
  · rename_i function _
    obtain ⟨x, -, hcreates, -, -⟩ := Scheduler.exists_creates_createThread Interpreter.machine
      function none true (.empty watchdog) w
    generalize Scheduler.createThread Interpreter.machine.watched _ _ _ _ w = r at hcreates ⊢
    have hrequests : r.2.2.requests = [x.prepare] := by
      rw [hcreates.requests, hw]
      rfl
    have hthreads : r.2.1.threads = Spawn.created [x] := by
      rw [hcreates.scheduler]
      rfl
    have hprepared := hcreates.prepared
    have hnumbers := hcreates.numbers
    rw [Scheduler.numbers, hrequests, hthreads]
    cases hthread : x.thread? with
    | none =>
        have hnone : Spawn.created [x] = [] := by simp [Spawn.created, hthread]
        rw [hnone] at hprepared ⊢
        exact ⟨hprepared.ge, by simp [Spawn.prepare, hthread, ofRequest?],
          by simp [Spawn.prepare, hthread, ofRequest?], by simp⟩
    | some t =>
        have hone : Spawn.created [x] = [t] := by simp [Spawn.created, hthread]
        rw [hone] at hprepared hnumbers ⊢
        have hnumber : t.context.number = w.prepared := List.singleton_inj.1 hnumbers
        have hdeeds : [x.prepare].filterMap ofRequest? = [.created w.prepared] := by
          simp [Spawn.prepare, hthread, ofRequest?, hnumber]
        rw [hdeeds, hprepared]
        exact ⟨Nat.le_add_right _ _, by simp, by simp, by simp [hnumber]⟩
  · rw [hw]
    exact ⟨le_rfl, by simp, by simp, by simp [Scheduler.numbers, Scheduler.empty]⟩

end Cutscene
