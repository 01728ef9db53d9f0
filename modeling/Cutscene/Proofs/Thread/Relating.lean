import Cutscene.Proofs.Thread.Watching

/-!
# What a scheduler does to the state of a machine

A scheduler asks a machine for little. It has contexts prepared and takes the threads that were
asked for, it gives contexts back and ends them, and in between it resumes contexts.

What resumes do can be written down in a list, one resume after the other (`Scheduler.RunsDoing`).
Every tick that ends does something in this sense, whatever is written down
(`Scheduler.Runs.exists_doing`). If everything but resumes relates the states of a machine
(`Machine.Relates`), then a tick does what its resumes do, one after the other
(`Scheduler.RunsDoing.relates`).
-/

namespace Cutscene

variable {σ φ α κ δ : Type}

namespace Scheduler

/-- A tick that ends, with what its resumes do: `does` tells it of a context, its deadline and a
state. -/
inductive RunsDoing (m : Machine σ φ α κ) (does : κ → Deadline → σ → List δ) :
    Nat → Scheduler κ → σ → List δ → Scheduler κ × σ → Prop
  | done {index : Nat} {sch : Scheduler κ} {s : σ} (hturn : turn m index sch s = none) :
      RunsDoing m does index sch s [] (sch, s)
  | more {index index' : Nat} {sch sch' : Scheduler κ} {s s' : σ} {t : Thread κ} {ds : List δ}
      {r : Scheduler κ × σ} (hthread : sch.threads[index]? = some t)
      (hturn : turn m index sch s = some (index', sch', s'))
      (hrest : RunsDoing m does index' sch' s' ds r) :
      RunsDoing m does index sch s (does t.context (sch.watchdog.arm (m.now s)) s ++ ds) r

variable {m : Machine σ φ α κ} {does : κ → Deadline → σ → List δ} {index : Nat} {sch : Scheduler κ}
  {s : σ} {r : Scheduler κ × σ}

theorem RunsDoing.runs {ds : List δ} (h : RunsDoing m does index sch s ds r) :
    Runs m index sch s r := by
  induction h with
  | done hturn => exact .done hturn
  | more _ hturn _ ih => exact .more hturn ih

/-- A turn is one of a thread. -/
theorem exists_thread_of_turn {next : Nat × Scheduler κ × σ}
    (h : turn m index sch s = some next) : ∃ t, sch.threads[index]? = some t := by
  unfold turn at h
  split at h
  · cases h
  · rename_i t ht
    exact ⟨t, ht⟩

theorem Runs.exists_doing (does : κ → Deadline → σ → List δ) (h : Runs m index sch s r) :
    ∃ ds, RunsDoing m does index sch s ds r := by
  induction h with
  | done hturn => exact ⟨[], .done hturn⟩
  | more hturn _ ih =>
      obtain ⟨ds, hrest⟩ := ih
      obtain ⟨t, ht⟩ := exists_thread_of_turn hturn
      exact ⟨_, .more ht hturn hrest⟩

end Scheduler

/-- Whatever is asked of a machine relates its states, but for resumes. -/
structure Machine.Relates (m : Machine σ φ α κ) (R : σ → σ → Prop) : Prop where
  refl : ∀ s, R s s
  trans : ∀ {s s' s''}, R s s' → R s' s'' → R s s''
  note : ∀ line s, R s (m.note line s)
  prepare : ∀ f args s, R s (m.prepare f args s).2
  abort : ∀ c s, R s (m.abort c s).2
  recycle : ∀ c s, R s (m.recycle c s)
  takeSpawned : ∀ s, R s (m.takeSpawned s).2
  collectStep : ∀ s, R s (m.collectStep s)
  collectFull : ∀ s, R s (m.collectFull s)

namespace Machine.Relates

variable {m : Machine σ φ α κ} {R : σ → σ → Prop}

theorem createThread (h : m.Relates R) (function : φ) (args : Option α) (keepAlive : Bool)
    (sch : Scheduler κ) (s : σ) :
    R s (Scheduler.createThread m function args keepAlive sch s).2.2 := by
  have hprepare := h.prepare function args s
  unfold Scheduler.createThread
  split
  · rename_i e s' heq
    rw [heq] at hprepare
    exact h.trans hprepare (h.note _ _)
  · rename_i c s' heq
    rw [heq] at hprepare
    exact h.trans hprepare (h.note _ _)

theorem createSpawned (h : m.Relates R) (requests : List (SpawnRequest φ α)) (sch : Scheduler κ)
    (s : σ) : R s (Scheduler.createSpawned m requests sch s).2 := by
  induction requests generalizing sch s with
  | nil => exact h.refl s
  | cons r requests ih => exact h.trans (h.createThread r.function r.args false sch s) (ih _ _)

theorem retire (h : m.Relates R) (t : Thread κ) (state : ContextState) (sch : Scheduler κ) (s : σ) :
    R s (Scheduler.retire m t state sch s).2 := by
  have hnoted : R s (if state = .finished
      then m.note ⟨.debug, s!"script thread #{t.id} ({t.label}) finished"⟩ s
      else m.note
        ⟨.warn, s!"script thread #{t.id} ({t.label}) removed while {state.label}"⟩ s) := by
    split
    · exact h.note _ s
    · exact h.note _ s
  unfold Scheduler.retire
  dsimp only
  split
  · exact hnoted
  · exact h.trans hnoted (h.recycle _ _)

/-- What follows the resume of a turn relates the states. -/
theorem turn (h : m.Relates R) {index index' : Nat} {sch sch' : Scheduler κ} {s s' : σ}
    {t : Thread κ} (hthread : sch.threads[index]? = some t)
    (hturn : Scheduler.turn m index sch s = some (index', sch', s')) :
    R (m.resume t.context (sch.watchdog.arm (m.now s)) s).2.2 s' := by
  have hresumed : R (m.resume t.context (sch.watchdog.arm (m.now s)) s).2.2
      (Scheduler.resume m sch.watchdog t s).2.2.2 :=
    h.trans (h.note _ _) (h.takeSpawned _)
  have hcreated := h.trans hresumed (h.createSpawned
    (Scheduler.resume m sch.watchdog t s).2.2.1
    (sch.putAt index (Scheduler.resume m sch.watchdog t s).2.1) _)
  unfold Scheduler.turn at hturn
  rw [hthread] at hturn
  dsimp only at hturn
  split at hturn
  · obtain ⟨-, -, rfl⟩ := Option.some.inj hturn
    exact h.trans hcreated (h.collectStep _)
  · obtain ⟨-, -, rfl⟩ := Option.some.inj hturn
    exact h.trans (h.trans hcreated (h.retire _ _ _ _)) (h.collectStep _)

theorem abortAll (h : m.Relates R) (sch : Scheduler κ) (s : σ) : R s (sch.abortAll m s).2 := by
  have hdiscard : ∀ (ts : List (Thread κ)) (s : σ), R s (ts.foldl (Scheduler.discard m) s) := by
    intro ts
    induction ts with
    | nil => exact h.refl
    | cons t ts ih =>
        intro s
        exact h.trans (h.trans (h.abort t.context s) (h.recycle _ _)) (ih _)
  have hnoted : R s (if sch.threads.isEmpty then s
      else m.note ⟨.debug, s!"aborting {sch.threads.length} script thread(s)"⟩ s) := by
    split
    · exact h.refl s
    · exact h.note _ s
  exact h.trans (h.trans hnoted (hdiscard _ _)) (h.collectFull _)

end Machine.Relates

/-- What resumes do, with what is written down of them, a tick does, if all else that is asked of
the machine does nothing that is written down. -/
theorem Scheduler.RunsDoing.relates {m : Machine σ φ α κ} {does : κ → Deadline → σ → List δ}
    {R : List δ → σ → σ → Prop} (hsilent : m.Relates (R []))
    (htrans : ∀ {ds ds' s s' s''}, R ds s s' → R ds' s' s'' → R (ds ++ ds') s s'')
    (hresume : ∀ c d s, R (does c d s) s (m.resume c d s).2.2) {index : Nat} {sch : Scheduler κ}
    {s : σ} {ds : List δ} {r : Scheduler κ × σ} (hruns : RunsDoing m does index sch s ds r) :
    R ds s r.2 := by
  induction hruns with
  | done => exact hsilent.refl _
  | more hthread hturn _ ih =>
      have hfirst := htrans (hresume _ _ _) (hsilent.turn hthread hturn)
      rw [List.append_nil] at hfirst
      exact htrans hfirst ih

end Cutscene
