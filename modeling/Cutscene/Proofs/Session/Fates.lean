import Cutscene.Proofs.Session.Contract
import Cutscene.Proofs.Session.Lives
import Cutscene.Proofs.Thread.LastResume

/-!
# What becomes of the entry thread

The entry thread of the scripts of a scene is resumed once in a tick and comes out of that resume in
one of four ways: it waits, it has stopped itself or was late, it has failed, or its function has
returned values (`SceneScripts.EntryMeets`).

It is the only thread that is kept, and between ticks nothing is retained (`SceneScripts.Tended`).
This is what a tick preserves, and with it goes what the tick logs: if the entry thread stays, or
leaves without a value to show, nothing; else one line (`SceneScripts.Tended.tick`).
-/

namespace Cutscene

open Interpreter (machine reach stateOf results)
open Interpreter.Contract

namespace SceneScripts

variable [Interpreter]

/-! ## A tick of the scripts of a scene -/

/-- The entry thread is resumed in a tick, in a state. -/
def ResumesEntry (scripts : SceneScripts) (clock : Nat → Nat) (r : Reach)
    (t : Thread Interpreter.Context) (s : Interpreter.State) : Prop :=
  scripts.entry = some t.id ∧ ∃ n b,
    Scheduler.turns machine n (0, scripts.scheduler, scripts.state clock r) = some b ∧
      b.2.1.threads[b.1]? = some t ∧ b.2.2 = s

/-- What is logged of an entry thread with some results. -/
def resultLines : List Json → List String
  | [] => []
  | values =>
    let texts := " ".intercalate (values.map resultText)
    [s!"script.{entryName} returned {texts}"]

omit [Interpreter] in
theorem length_resultLines (values : List Json) : (resultLines values).length ≤ 1 := by
  cases values with
  | nil => exact Nat.zero_le 1
  | cons j js => exact Nat.le_refl 1

/-- Between ticks nothing is retained, and the only kept thread is the entry thread, under its own
name and waiting to be resumed. -/
structure Tended (scripts : SceneScripts) : Prop where
  retained : scripts.scheduler.retained = ∅
  kept : scripts.scheduler.kept.map (·.id) = scripts.entry.toList
  entry : ∀ t ∈ scripts.scheduler.kept,
    machine.label t.context = entryName ∧ (stateOf t.context).isResumable = true
  own : ∀ id ∈ scripts.entry, id < scripts.scheduler.nextId ∧
    ∀ t ∈ scripts.scheduler.threads, t.id = id → t.keepAlive = true

variable [Interpreter.Contract]

/-- The entry thread is resumed in a tick and comes out of it so. -/
def EntryMeets (scripts : SceneScripts) (clock : Nat → Nat) (r : Reach) (met : Fate) : Prop :=
  ∃ t s, scripts.ResumesEntry clock r t s ∧
    fate t.context (scripts.scheduler.watchdog.arm (machine.now s)) s = met

/-- Some lines are what is to be logged of the entry thread in a tick: nothing if there is none any
more, and otherwise what it has returned in it. It has been alive, and stays so exactly if it
waits. -/
def Accounts (scripts : SceneScripts) (clock : Nat → Nat) (r : Reach) (lines : List String) :
    Prop :=
  match scripts.entry with
  | none => lines = []
  | some id => ∃ fate, scripts.EntryMeets clock r fate ∧
      (∀ fate', scripts.EntryMeets clock r fate' → fate' = fate) ∧
      scripts.scheduler.isAlive id = true ∧
      (scripts.tick clock r).1.scheduler.isAlive id = decide (fate.state = .suspended) ∧
      lines = resultLines fate.values

/-- What is logged of a thread is what its last resume has come to. -/
theorem log_logResults {c : Interpreter.Context} {d : Deadline} {s : Interpreter.State}
    (hlabel : machine.label c = entryName) (hc : (stateOf c).isResumable = true) (r : Reach) :
    (logResults (machine.resume c d s).2.1 r).chronicle.log.toList =
      r.chronicle.log.toList ++ resultLines (fate c d s).values := by
  unfold logResults
  dsimp only
  rw [stateOf_resume, state_fate c d s hc, label_resume, hlabel]
  by_cases hstate : (fate c d s).state = .finished
  · rw [results_fate c d s hc hstate]
    cases (fate c d s).values with
    | nil => simp [resultLines]
    | cons j js =>
        rw [if_pos ⟨hstate, List.cons_ne_nil j js⟩]
        exact Array.toList_push
  · -- results that were left before do not count
    have hvalues : (fate c d s).values = [] := by
      cases hfate : fate c d s with
      | returned values => exact absurd (congrArg Fate.state hfate) hstate
      | waits | stopped | failed => rfl
    rw [if_neg fun h => hstate h.1, hvalues, resultLines, List.append_nil]

/-! ### What a tick preserves -/

theorem tended_begin (path : String) (watchdog : Watchdog) (s : Interpreter.State) :
    (begin path watchdog s).1.Tended := by
  have hempty : ∀ memory, (⟨memory, .empty watchdog, none⟩ : SceneScripts).Tended := fun memory =>
    ⟨rfl, rfl, by simp [Scheduler.kept, Scheduler.empty], by simp⟩
  unfold begin
  dsimp only
  split
  · rename_i function hfunction
    unfold Scheduler.createThread
    split
    · exact hempty _
    · rename_i c s' hprepare
      refine ⟨rfl, rfl, fun t ht => ?_, ?_⟩
      · obtain rfl := List.mem_singleton.1 (List.mem_of_mem_filter ht)
        exact prepare_function hfunction hprepare
      · simp [settle, Scheduler.empty]
  · exact hempty _

section

variable {scripts : SceneScripts} {clock : Nat → Nat} {r : Reach}
  {q : Scheduler Interpreter.Context × Interpreter.State}

omit [Interpreter.Contract] in
theorem tick_eq_of_none (hentry : scripts.entry = none)
    (hruns : Scheduler.Runs machine 0 scripts.scheduler (scripts.state clock r) q) :
    scripts.tick clock r = settle none q.1 q.2 := by
  unfold tick Scheduler.tick
  rw [hruns.resumeFrom_eq, hentry]

omit [Interpreter.Contract] in
/-- Without an entry thread a tick logs nothing of its own. -/
theorem Tended.tick_of_none (h : scripts.Tended) (hentry : scripts.entry = none)
    (hruns : Scheduler.Runs machine 0 scripts.scheduler (scripts.state clock r) q) :
    (scripts.tick clock r).1.Tended := by
  have hkept : scripts.scheduler.kept = [] := by
    have hids := h.kept
    rw [hentry] at hids
    exact List.map_eq_nil_iff.1 hids
  obtain ⟨hkept', hretained⟩ := hruns.quiet hkept
  rw [hkept] at hkept'
  rw [tick_eq_of_none hentry hruns]
  refine ⟨hretained.trans h.retained, ?_, ?_, by simp [settle]⟩
  · show q.1.kept.map (·.id) = []
    rw [hkept']
    rfl
  · show ∀ t ∈ q.1.kept, _
    simp [hkept']

/-- What is left of the entry thread when it has met a fate: the thread, or its context among the
retained ones. -/
structure LeftBy (fate : Fate) (id : Nat) (c : Interpreter.Context)
    (sch : Scheduler Interpreter.Context) : Prop where
  kept : sch.kept.map (·.id) = if fate.state = .suspended then [id] else []
  entry : ∀ t ∈ sch.kept,
    machine.label t.context = entryName ∧ (stateOf t.context).isResumable = true
  retained : sch.retained =
    if fate.state = .suspended then ∅
    else (∅ : Std.ExtTreeMap Nat Interpreter.Context).insert id c
  own : id < sch.nextId ∧ ∀ t ∈ sch.threads, t.id = id → t.keepAlive = true

omit [Interpreter.Contract] in
theorem LeftBy.isAlive {fate : Fate} {id : Nat} {c : Interpreter.Context}
    {sch : Scheduler Interpreter.Context} (h : LeftBy fate id c sch) :
    sch.isAlive id = decide (fate.state = .suspended) := by
  rw [Bool.eq_iff_iff, Scheduler.isAlive_iff_mem_kept h.own.2, h.kept]
  by_cases hwaits : fate.state = .suspended <;> simp [hwaits]

/-- The threads resumed in a tick leave of the entry thread what its fate says. -/
theorem Tended.exists_leftBy (h : scripts.Tended) {id : Nat} (hentry : scripts.entry = some id)
    (hruns : Scheduler.Runs machine 0 scripts.scheduler (scripts.state clock r) q) :
    ∃ fate c, scripts.EntryMeets clock r fate ∧ LeftBy fate id c q.1 ∧
      ∀ r, (logResults c r).chronicle.log.toList =
        r.chronicle.log.toList ++ resultLines fate.values := by
  have hids := h.kept
  rw [hentry] at hids
  obtain ⟨t, hkept, rfl⟩ : ∃ t, scripts.scheduler.kept = [t] ∧ t.id = id := by
    simpa [List.map_eq_singleton_iff] using hids
  obtain ⟨hlabel, hresumable⟩ := h.entry t (by simp [hkept])
  obtain ⟨hlt, hown⟩ := h.own t.id hentry
  -- the thread is resumed as it was found, so it has its name there and can be resumed
  obtain ⟨n, b, hb, hthread, hleft, hretained⟩ := hruns.exists_last (t := t) rfl hkept
  let d := scripts.scheduler.watchdog.arm (machine.now b.2.2)
  have hstate : (machine.resume t.context d b.2.2).1 = (fate t.context d b.2.2).state :=
    state_fate _ _ _ hresumable
  have hleft : q.1.kept = Scheduler.stays t (machine.resume t.context d b.2.2) := hleft
  have hretained : q.1.retained = if (machine.resume t.context d b.2.2).1 = .suspended then
      scripts.scheduler.retained else _ := hretained
  rw [hstate, h.retained] at hretained
  rw [Scheduler.stays, hstate] at hleft
  refine ⟨fate t.context d b.2.2, (machine.resume t.context d b.2.2).2.1,
    ⟨t, b.2.2, ⟨hentry, n, b, hb, hthread, rfl⟩, rfl⟩,
    ⟨?_, ?_, hretained, hruns.keepAlive_of_id hlt hown⟩, log_logResults hlabel hresumable⟩
  · rw [hleft]
    split <;> rfl
  · rw [hleft]
    split
    · rename_i hwaits
      intro u hu
      obtain rfl := List.mem_singleton.1 hu
      refine ⟨(label_resume t.context d b.2.2).trans hlabel, ?_⟩
      show (stateOf (machine.resume t.context d b.2.2).2.1).isResumable = true
      rw [stateOf_resume, hstate, hwaits]
      rfl
    · simp

/-- In a tick the entry thread meets a fate. If it stays, nothing changes; otherwise it is gone, and
what it has returned is logged. -/
theorem Tended.tick_of_some (h : scripts.Tended) {id : Nat} (hentry : scripts.entry = some id)
    (hruns : Scheduler.Runs machine 0 scripts.scheduler (scripts.state clock r) q) :
    (scripts.tick clock r).1.Tended ∧ ∃ fate, scripts.EntryMeets clock r fate ∧
      (scripts.tick clock r).1.scheduler.isAlive id = decide (fate.state = .suspended) ∧
      (scripts.tick clock r).1.entry = (if fate.state = .suspended then some id else none) ∧
      (scripts.tick clock r).2.chronicle.log.toList =
        (reach q.2).chronicle.log.toList ++ resultLines fate.values := by
  obtain ⟨fate, c, hmeets, hleft, hlog⟩ := h.exists_leftBy hentry hruns
  have hticked : scripts.scheduler.tick machine (scripts.state clock r) = q :=
    hruns.resumeFrom_eq
  have hkept := hleft.kept
  have hretained := hleft.retained
  unfold SceneScripts.tick
  rw [hticked, hentry]
  dsimp only
  rw [hleft.isAlive]
  by_cases hwaits : fate.state = .suspended
  · rw [if_pos hwaits] at hkept hretained
    rw [if_pos (decide_eq_true hwaits)]
    refine ⟨⟨hretained, hkept, hleft.entry, ?_⟩, fate, hmeets, hleft.isAlive,
      (if_pos hwaits).symm, ?_⟩
    · intro id hid
      obtain rfl := Option.some.inj hid
      exact hleft.own
    · rw [fate.values_of_suspended hwaits, resultLines, List.append_nil]
      rfl
  · rw [if_neg hwaits] at hkept hretained
    rw [if_neg (by simp [hwaits]), Scheduler.takeRetained_of_singleton hretained]
    exact ⟨⟨rfl, hkept, hleft.entry, by simp [settle]⟩, fate, hmeets, hleft.isAlive,
      (if_neg hwaits).symm, hlog (reach q.2)⟩

theorem Tended.tick (h : scripts.Tended)
    (hruns : Scheduler.Runs machine 0 scripts.scheduler (scripts.state clock r) q) :
    (scripts.tick clock r).1.Tended := by
  cases hentry : scripts.entry with
  | none => exact h.tick_of_none hentry hruns
  | some id => exact (h.tick_of_some hentry hruns).1

omit [Interpreter.Contract] in
/-- The entry thread is alive as long as it is remembered. -/
theorem Tended.isAlive (h : scripts.Tended) {id : Nat} (hentry : scripts.entry = some id) :
    scripts.scheduler.isAlive id = true := by
  rw [Scheduler.isAlive_iff_mem_kept (h.own id hentry).2, h.kept, hentry]
  exact List.mem_singleton_self id

omit [Interpreter.Contract] in
theorem Tended.retainedCount (h : scripts.Tended) : scripts.scheduler.retainedCount = 0 := by
  rw [Scheduler.retainedCount, h.retained]
  rfl

end

/-! ### The life of the scripts of a scene -/

namespace Lives

variable {sources : Sources} {watchdog : Watchdog} {path : String} {r : Reach}
  {scripts : SceneScripts}

theorem tended (h : Lives sources watchdog path r scripts) : scripts.Tended := by
  induction h with
  | start h =>
      unfold SceneScripts.start at h
      split at h
      · cases h
      · split at h
        · cases h
        · rename_i s _
          obtain rfl := Except.ok.inj (Prod.mk.inj h).1
          exact tended_begin path watchdog (Interpreter.opening s)
  | tick _ clock reach hruns ih => exact ih.tick hruns

/-- No thread is resumed twice in a tick, so the entry thread meets one fate there. -/
theorem entryMeets_unique (h : Lives sources watchdog path r scripts) {clock : Nat → Nat}
    {reach : Reach} {met met' : Fate} (hmeets : scripts.EntryMeets clock reach met)
    (hmeets' : scripts.EntryMeets clock reach met') : met = met' := by
  have hrising := h.rising (scripts.state clock reach)
  obtain ⟨t, s, ⟨hentry, n, b, hb, hthread, rfl⟩, rfl⟩ := hmeets
  obtain ⟨t', s', ⟨hentry', n', b', hb', hthread', rfl⟩, rfl⟩ := hmeets'
  -- both resumes are those of one thread, and so of one turn
  have hid : t'.id = t.id := Option.some.inj (hentry'.symm.trans hentry)
  obtain rfl := hrising.eq_of_resumedAt ⟨b, hb, hthread⟩ ⟨b', hb', hthread'⟩ hid
  obtain rfl := Option.some.inj (hb.symm.trans hb')
  obtain rfl := Option.some.inj (hthread.symm.trans hthread')
  rfl

/-- What a tick logs after its threads have run. Once it has logged a line, there is no entry thread
any more. -/
theorem exists_accounts (h : Lives sources watchdog path r scripts) {clock : Nat → Nat}
    {r' : Reach} {q : Scheduler Interpreter.Context × Interpreter.State}
    (hruns : Scheduler.Runs machine 0 scripts.scheduler (scripts.state clock r') q) :
    ∃ lines, scripts.Accounts clock r' lines ∧
      (scripts.tick clock r').2.chronicle.log.toList =
        (reach q.2).chronicle.log.toList ++ lines ∧
      (scripts.entry = none ∨ lines ≠ [] → (scripts.tick clock r').1.entry = none) := by
  unfold Accounts
  cases hentry : scripts.entry with
  | none =>
      rw [tick_eq_of_none hentry hruns]
      exact ⟨[], rfl, (List.append_nil _).symm, fun _ => rfl⟩
  | some id =>
      obtain ⟨-, fate, hmeets, halive, hentry', hlog⟩ := h.tended.tick_of_some hentry hruns
      refine ⟨_, ⟨fate, hmeets, fun _ hfate => h.entryMeets_unique hfate hmeets,
        h.tended.isAlive hentry, halive, rfl⟩, hlog, ?_⟩
      rintro (hnone | hlines)
      · cases hnone
      · rw [hentry', if_neg]
        exact fun hwaits => hlines (by rw [fate.values_of_suspended hwaits, resultLines])

end Lives

section

variable {scripts : SceneScripts} {clock : Nat → Nat} {r : Reach} {lines : List String}

theorem Accounts.length_le (h : scripts.Accounts clock r lines) : lines.length ≤ 1 := by
  unfold Accounts at h
  split at h
  · rw [h]
    exact Nat.zero_le 1
  · obtain ⟨fate, -, -, -, -, rfl⟩ := h
    exact length_resultLines fate.values

theorem Accounts.eq_of_entryMeets (h : scripts.Accounts clock r lines) {fate : Fate}
    (hmeets : scripts.EntryMeets clock r fate) : lines = resultLines fate.values := by
  obtain ⟨t, -, ⟨hentry, -⟩, -⟩ := id hmeets
  unfold Accounts at h
  rw [hentry] at h
  obtain ⟨fate', -, hunique, -, -, rfl⟩ := h
  rw [hunique fate hmeets]

theorem Accounts.eq_nil (h : scripts.Accounts clock r lines) (hentry : scripts.entry = none) :
    lines = [] := by
  unfold Accounts at h
  rwa [hentry] at h

end

end SceneScripts

end Cutscene
