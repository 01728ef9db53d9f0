import Cutscene.Proofs.Script.History
import Cutscene.Proofs.Thread.Keeping

/-!
# Threads that are aborted

Whether a thread has called `abort`, and whether it was found to be late, is noted in the memory
that all threads share, and looked at when the resume has ended. Every resume begins by wiping both
notes out, so what is found at its end was noted in it: the resume ends aborted if the thread has
called `abort` or was late (`resume_of_stops`), and otherwise as its coroutine has ended
(`resume_of_not_stops`), whatever others have left in the memory.

A live thread can always be resumed (`resumable_run`), so this is how every turn goes. A thread that
ends in one is gone, and its context cannot be resumed by anybody (`resume_again`).
-/

namespace Cutscene

namespace Script

/-! ## One resume -/

/-- What only one deed of scripts notes is noted at the end if it was noted before or that deed was
done. -/
theorem Marks.Performs.noted_iff {note : Marks → Bool} {deed : Deed}
    (hnote : ∀ (m : Marks) (d : Deed), d.IsOwn →
      (note (m.after d) = true ↔ note m = true ∨ deed = d))
    {m m' : Marks} {deeds : List Deed} (h : m.Performs deeds m') :
    note m' = true ↔ note m = true ∨ deed ∈ deeds := by
  obtain ⟨hleads, hown⟩ := h
  induction deeds generalizing m with
  | nil =>
      obtain rfl : m' = m := hleads
      simp
  | cons d deeds ih =>
      rw [ih hleads.2 fun d' hd' => hown d' (List.mem_cons_of_mem _ hd'),
        hnote m d (hown d List.mem_cons_self), or_assoc, List.mem_cons]

theorem abortRequested_after (m : Marks) (d : Deed) (hd : d.IsOwn) :
    (m.after d).abortRequested = true ↔ m.abortRequested = true ∨ .aborted = d := by
  cases d with
  | began => exact hd.elim
  | _ => simp [Marks.after]

theorem timedOut_after (m : Marks) (d : Deed) (hd : d.IsOwn) :
    (m.after d).timedOut = true ↔ m.timedOut = true ∨ .late = d := by
  cases d with
  | began => exact hd.elim
  | _ => simp [Marks.after]

/-- A thread stops itself in a resume: it calls `abort`, or it is found to be late. -/
def Stops (c : Context) (d : Deadline) (s : State) : Prop :=
  .aborted ∈ resumeDeeds c d s ∨ .late ∈ resumeDeeds c d s

/-- How the coroutine of a thread ends in a resume, and the state that it leaves. -/
def ran (c : Context) (d : Deadline) (s : State) : Ending × State :=
  c.coroutine.resume ⟨c.label, d⟩ (s.beginResume c.label)

/-- A resume ends as the coroutine has ended: by giving way, with results, or with an error that
nothing has caught. -/
def EndsBy (e : Ending) (state : ContextState) (c : Context) : Prop :=
  match e with
  | .paused stack => state = .suspended ∧ c.coroutine = .paused stack
  | .finished vs => state = .finished ∧ c.results = vs.filterMap (·.toJson?)
  | .failed => state = .aborted

theorem EndsBy.eq_suspended {e : Ending} {state : ContextState} {c : Context}
    (h : EndsBy e state c) (hstate : state.isResumable = true) : state = .suspended := by
  cases e with
  | paused stack => exact h.1
  | finished vs =>
      obtain ⟨rfl, -⟩ := h
      cases hstate
  | failed =>
      obtain rfl := h
      cases hstate

/-- The state in which others have left other notes. -/
def State.noted (abortRequested timedOut : Bool) (s : State) : State :=
  { s with memory := { s.memory with abortRequested, timedOut } }

section

variable {c : Context} {d : Deadline} {s : State}

theorem mem_resumeDeeds_iff (h : c.state.isResumable = true) {deed : Deed} (hdeed : deed ≠ .began) :
    deed ∈ resumeDeeds c d s ↔
      deed ∈ c.coroutine.deeds ⟨c.label, d⟩ (s.beginResume c.label) := by
  rw [resumeDeeds, if_pos h, List.mem_cons]
  exact or_iff_right hdeed

/-- At the end of a resume it is noted that the thread is to be stopped exactly if it has stopped
itself. -/
theorem noted_iff_stops (h : c.state.isResumable = true) :
    ((ran c d s).2.memory.abortRequested || (ran c d s).2.memory.timedOut) = true ↔
      Stops c d s := by
  have hperforms := c.coroutine.performs_resume ⟨c.label, d⟩ (s.beginResume c.label)
  have haborted := hperforms.noted_iff abortRequested_after
  have hlate := hperforms.noted_iff timedOut_after
  -- both notes have been wiped out at the beginning
  have hbegins : ¬(s.beginResume c.label).marks.abortRequested = true ∧
      ¬(s.beginResume c.label).marks.timedOut = true := ⟨Bool.false_ne_true, Bool.false_ne_true⟩
  rw [or_iff_right hbegins.1, ← mem_resumeDeeds_iff h Deed.noConfusion] at haborted
  rw [or_iff_right hbegins.2, ← mem_resumeDeeds_iff h Deed.noConfusion] at hlate
  rw [Stops, ← haborted, ← hlate]
  exact Bool.or_eq_true_iff

theorem resume_eq (h : c.state.isResumable = true) :
    resume c d s =
      let q := conclude c (ran c d s).1 (ran c d s).2.endResume
      (q.1.state, q.1, q.2) := by
  rw [resume, if_pos h]
  rfl

/-- A thread that has stopped itself ends aborted, however its coroutine has ended. -/
theorem resume_of_stops (h : c.state.isResumable = true) (hstops : Stops c d s) :
    (resume c d s).1 = .aborted := by
  have hnoted := (noted_iff_stops h).mpr hstops
  have hconclude : conclude c (ran c d s).1 (ran c d s).2.endResume = _ := if_pos hnoted
  rw [resume_eq h, hconclude]

/-- Any other thread ends as its coroutine does. -/
theorem resume_of_not_stops (h : c.state.isResumable = true) (hstops : ¬Stops c d s) :
    EndsBy (ran c d s).1 (resume c d s).1 (resume c d s).2.1 := by
  have hnoted := mt (noted_iff_stops h).mp hstops
  have hconclude : conclude c (ran c d s).1 (ran c d s).2.endResume = _ := if_neg hnoted
  rw [resume_eq h, hconclude]
  cases (ran c d s).1 with
  | paused stack => exact ⟨rfl, rfl⟩
  | finished vs => exact ⟨rfl, rfl⟩
  | failed => rfl

/-- What others have noted does not matter. -/
theorem resume_noted (h : c.state.isResumable = true) (abortRequested timedOut : Bool) :
    resume c d (s.noted abortRequested timedOut) = resume c d s := by
  rw [resume, if_pos h, resume, if_pos h]
  rfl

/-- The context that is left is in the state in which the resume has ended. -/
theorem state_resume (c : Context) (d : Deadline) (s : State) :
    (resume c d s).2.1.state = (resume c d s).1 := by
  unfold resume
  split <;> rfl

/-- A context can be resumed again only after a resume that has ended suspended. -/
theorem eq_suspended_of_isResumable (h : (resume c d s).1.isResumable = true) :
    (resume c d s).1 = .suspended := by
  by_cases hc : c.state.isResumable = true
  · by_cases hstops : Stops c d s
    · rw [resume_of_stops hc hstops] at h
      cases h
    · exact (resume_of_not_stops hc hstops).eq_suspended h
  · rw [resume, if_neg hc] at h
    exact absurd h hc

/-- After any other resume a further one does nothing. -/
theorem resume_again (h : (resume c d s).1 ≠ .suspended) (d' : Deadline) (s' : State) :
    resume (resume c d s).2.1 d' s' = ((resume c d s).1, (resume c d s).2.1, s') := by
  have hover : ¬(resume c d s).2.1.state.isResumable = true := by
    rw [state_resume]
    exact mt eq_suspended_of_isResumable h
  rw [resume, if_neg hover, state_resume]

end

open Custody (Action Gone act later)

/-! ## Live threads can be resumed -/

/-- All threads can be resumed. -/
def Resumable (ts : List (Thread Context)) : Prop :=
  ∀ t ∈ ts, t.context.state.isResumable = true

theorem state_prepare {e : Entry} {arg : Option Argument} {s s' : State} {c : Context}
    (h : prepare e arg s = (.ok c, s')) : c.state = .ready := by
  unfold prepare at h
  split at h
  · cases h
  · split at h
    · obtain ⟨hc, -⟩ := Prod.mk.inj h
      rw [← Except.ok.inj hc]
    · obtain ⟨hc, -⟩ := Prod.mk.inj h
      rw [← Except.ok.inj hc]

theorem Resumable.append {ts ts' : List (Thread Context)} (h : Resumable ts) (h' : Resumable ts') :
    Resumable (ts ++ ts') := fun t ht => (List.mem_append.mp ht).elim (h t) (h' t)

/-- A thread that is created can be resumed. -/
theorem exists_resumable_createThread (e : Entry) (args : Option Argument) (keepAlive : Bool)
    (sch : Scheduler Context) (s : State) :
    ∃ made, (Scheduler.createThread machine e args keepAlive sch s).2.1.threads =
      sch.threads ++ made ∧ Resumable made := by
  unfold Scheduler.createThread
  split
  · exact ⟨[], (List.append_nil _).symm, by simp [Resumable]⟩
  · rename_i c s' hprepare
    refine ⟨_, rfl, fun t ht => ?_⟩
    obtain rfl := List.mem_singleton.mp ht
    show c.state.isResumable = true
    rw [state_prepare hprepare]
    rfl

theorem exists_resumable_createSpawned (requests : List Request) (sch : Scheduler Context)
    (s : State) :
    ∃ made, (Scheduler.createSpawned machine requests sch s).1.threads = sch.threads ++ made ∧
      Resumable made := by
  induction requests generalizing sch s with
  | nil => exact ⟨[], (List.append_nil _).symm, by simp [Resumable]⟩
  | cons r requests ih =>
      obtain ⟨made, hmade, hresumable⟩ :=
        exists_resumable_createThread r.function r.args false sch s
      obtain ⟨rest, hrest, hresumable'⟩ := ih
        (Scheduler.createThread machine r.function r.args false sch s).2.1
        (Scheduler.createThread machine r.function r.args false sch s).2.2
      exact ⟨made ++ rest, by rw [← List.append_assoc, ← hmade]; exact hrest,
        hresumable.append hresumable'⟩

/-- The thread that is resumed in a turn stays only if it can be resumed again. -/
theorem Resumable.turn {sch : Scheduler Context} (h : Resumable sch.threads) {index : Nat}
    {t : Thread Context} (ht : sch.threads[index]? = some t) {s : State}
    {next : Nat × Scheduler Context × State}
    (hturn : Scheduler.turn machine index sch s = some next) : Resumable next.2.1.threads := by
  have hlt : index < sch.threads.length := (List.getElem?_eq_some_iff.mp ht).1
  obtain ⟨next', hturn', -, hthreads, -⟩ := exists_turn ht s
  obtain rfl := Option.some.inj (hturn.symm.trans hturn')
  obtain ⟨made, hmade, hresumable⟩ := exists_resumable_createSpawned
    (Scheduler.resume machine sch.watchdog t s).2.2.1
    (sch.putAt index (Scheduler.resume machine sch.watchdog t s).2.1)
    (Scheduler.resume machine sch.watchdog t s).2.2.2
  rw [hmade] at hthreads
  rw [hthreads]
  split
  · rename_i hstate
    refine Resumable.append (fun t' ht' => ?_) hresumable
    rcases List.mem_or_eq_of_mem_set ht' with ht' | rfl
    · exact h t' ht'
    · -- the context is left in the state in which the resume has ended
      have hleft := (state_resume t.context (sch.watchdog.arm s.time) s).trans hstate
      show (resume t.context (sch.watchdog.arm s.time) s).2.1.state.isResumable = true
      rw [hleft]
      rfl
  · have herase : ((sch.putAt index (Scheduler.resume machine sch.watchdog t s).2.1).threads ++
        made).eraseIdx index = sch.threads.eraseIdx index ++ made := by
      rw [List.eraseIdx_append_of_lt_length (by rwa [Scheduler.putAt, List.length_set])]
      exact congrArg (· ++ made) (List.eraseIdx_set_eq ..)
    rw [herase]
    exact Resumable.append (fun t' ht' => h t' (List.mem_of_mem_eraseIdx ht')) hresumable

theorem Resumable.act {o : Runtime} (h : Resumable o.scheduler.threads)
    (a : Action State Entry Argument) : Resumable (act machine o a).scheduler.threads := by
  cases a with
  | create e args keepAlive =>
      obtain ⟨made, hmade, hresumable⟩ :=
        exists_resumable_createThread e args keepAlive o.scheduler o.state
      show Resumable
        (Scheduler.createThread machine e args keepAlive o.scheduler o.state).2.1.threads
      rw [hmade]
      exact h.append hresumable
  | turn index =>
      unfold Custody.act
      dsimp only
      split
      · rename_i index' sch' s' hturn
        cases hthread : o.scheduler.threads[index]? with
        | none =>
            rw [Scheduler.turn, hthread] at hturn
            cases hturn
        | some t => exact h.turn hthread hturn
      · exact h
  | abortAll => exact fun t ht => absurd ht List.not_mem_nil
  | take id => exact h
  | elsewhere change => exact h

theorem resumable_run (watchdog : Watchdog) (s : State)
    (actions : List (Action State Entry Argument)) :
    Resumable (Custody.run machine watchdog s actions).scheduler.threads :=
  List.foldlRecOn actions (act machine) (motive := fun o => Resumable o.scheduler.threads)
    (fun _ ht => absurd ht List.not_mem_nil) fun _ ho a _ => ho.act a

/-! ## Aborts -/

/-- A script whose statements catch their own abort. One of its functions does the same and yields,
and the other one yields. -/
def quitter : Chunk where
  functions := [("quits", [.protect [.call "abort" []], .yield []]), ("waits", [.yield []])]
  main := [.protect [.call "abort" []]]

/-- The creation of a thread for each function, and some turns. -/
def quitting (turns : List Nat) : List (Action State Entry Argument) :=
  .create (.global "quits") none false :: .create (.global "waits") none false ::
    turns.map .turn

/-- The runtime of the script after that. -/
def quitterAfter (turns : List Nat) : Custody (Watched State Entry Argument) (Numbered Context) :=
  Custody.run machine.watched ⟨100⟩ (Watched.start (quitter.load freshState).2)
    ((quitting turns).map Action.watched)

end Script

end Cutscene
