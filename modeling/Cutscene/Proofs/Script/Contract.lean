import Cutscene.Proofs.Script.Aborts

/-!
# Scripts keep the contract

A thread comes out of a resume in one of four ways (`fate`): it has stopped itself or was late, and
otherwise it is as its coroutine has ended (`fate_eq_stopped_iff`, `fate_of_not_stops`). With what
scripts call, this is the account that the contract of an interpreter asks for
(`Interpreter.Contract`).
-/

namespace Cutscene

namespace Script

/-- How a thread comes out of a resume that has not stopped itself. -/
def Ending.fate : Ending → Fate
  | paused _ => .waits
  | failed => .failed
  | finished vs => .returned (vs.map (·.toJson?))

/-- How a thread comes out of a resume. -/
def fate (c : Context) (d : Deadline) (s : State) : Fate :=
  let (e, s) := ran c d s
  if s.memory.abortRequested || s.memory.timedOut then .stopped else e.fate

section

variable {c : Context} {d : Deadline} {s : State}

theorem Ending.fate_ne_stopped (e : Ending) : e.fate ≠ .stopped := by
  cases e <;> simp [fate]

theorem fate_of_stops (h : c.state.isResumable = true) (hstops : Stops c d s) :
    fate c d s = .stopped := if_pos ((noted_iff_stops h).mpr hstops)

theorem fate_of_not_stops (h : c.state.isResumable = true) (hstops : ¬Stops c d s) :
    fate c d s = (ran c d s).1.fate := if_neg (mt (noted_iff_stops h).mp hstops)

theorem fate_eq_stopped_iff (h : c.state.isResumable = true) :
    fate c d s = .stopped ↔ Stops c d s := by
  refine ⟨fun hfate => ?_, fate_of_stops h⟩
  by_contra hstops
  rw [fate_of_not_stops h hstops] at hfate
  exact (ran c d s).1.fate_ne_stopped hfate

/-- A resume ends as its fate says. -/
theorem state_eq_fate (h : c.state.isResumable = true) :
    (resume c d s).1 = (fate c d s).state := by
  by_cases hstops : Stops c d s
  · rw [fate_of_stops h hstops]
    exact resume_of_stops h hstops
  · have hends := resume_of_not_stops h hstops
    rw [fate_of_not_stops h hstops]
    cases hran : (ran c d s).1 with
    | paused stack =>
        rw [hran] at hends
        exact hends.1
    | failed =>
        rw [hran] at hends
        exact hends
    | finished vs =>
        rw [hran] at hends
        exact hends.1

theorem results_eq_fate (h : c.state.isResumable = true)
    (hfinished : (fate c d s).state = .finished) :
    (resume c d s).2.1.results = (fate c d s).values := by
  by_cases hstops : Stops c d s
  · rw [fate_of_stops h hstops] at hfinished
    cases hfinished
  · have hends := resume_of_not_stops h hstops
    rw [fate_of_not_stops h hstops] at hfinished ⊢
    cases hran : (ran c d s).1 with
    | finished vs =>
        rw [hran] at hends
        rw [hends.2, Ending.fate, Fate.values, List.filterMap_map]
        rfl
    | paused stack =>
        rw [hran] at hfinished
        cases hfinished
    | failed =>
        rw [hran] at hfinished
        cases hfinished

end

/-- A context keeps its name. -/
theorem label_resume (c : Context) (d : Deadline) (s : State) :
    (resume c d s).2.1.label = c.label := by
  unfold resume
  split
  · show (conclude c _ _).1.label = _
    unfold conclude
    split
    · rfl
    · split <;> rfl
  · rfl

/-- A thread for a global that is a function has its name and can be resumed. -/
theorem prepare_entry? {name : String} {e : Entry} {s s' : State} {c : Context}
    (hentry : entry? name s = some e) (hprepare : prepare e none s = (.ok c, s')) :
    c.label = name ∧ c.state.isResumable = true := by
  unfold entry? at hentry
  split at hentry
  · rename_i hfunction
    obtain rfl := Option.some.inj hentry
    unfold prepare State.entry at hprepare
    dsimp only at hprepare
    rw [if_pos hfunction] at hprepare
    obtain ⟨hc, -⟩ := Prod.mk.inj hprepare
    obtain rfl := Except.ok.inj hc
    exact ⟨rfl, rfl⟩
  · cases hentry

/-- Scripts keep the contract of an interpreter. -/
instance contract : Interpreter.Contract where
  loadCalls := loadHostCalls
  resumeCalls := resumeHostCalls
  fate := fate
  reach_fresh _ := rfl
  reach_restore _ _ _ := rfl
  load_comes := comes_load
  opening_same _ := .refl _
  resume_comes := comes_resume
  quiet := quiet
  prepare_function := prepare_entry?
  label_resume := label_resume
  stateOf_resume := state_resume
  state_fate _ _ _ := state_eq_fate
  results_fate _ _ _ := results_eq_fate

end Script

end Cutscene
