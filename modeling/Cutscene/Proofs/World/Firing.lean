import Cutscene.World

/-!
# How a trigger fires

Of the triggers that are hit, the first fires that the flags admit and whose event exists. Looking
for it changes nothing but the journal. The trigger that fires sets its bind flag and is remembered;
nothing else of the world changes (`fireTrigger_cases`).
-/

namespace Cutscene

/-- A trigger that fires, with its event. -/
structure Firing where
  handle : Handle
  trigger : Trigger Event
  event : Event

namespace World

/-- Whether a trigger that is hit fires, if none before it does. -/
def canFire (w : World) (t : Trigger Event) : Bool := w.admits t && (w.eventOf? t).isSome

/-- The world with another journal. -/
def withJournal (journal : Journal) (w : World) : World :=
  { w with chronicle := { w.chronicle with journal } }

/-- The trigger of a kind that fires at a position, if one does. -/
def firing? (kind : TriggerKind) (p : Point) (w : World) : Option Firing :=
  ((w.triggers.hits kind p).find? fun x => w.canFire x.2).bind fun x =>
    (w.eventOf? x.2).map fun e => ⟨x.1, x.2, e⟩

/-- The world after a trigger has fired. -/
def spend (f : Firing) (w : World) : World :=
  let w := match f.trigger.bindFlag with
    | some flag => (w.setFlag flag).2
    | none => w
  { w with lastTrigger := some f.handle }

@[simp] theorem hasFlag_withJournal (flag : String) (journal : Journal) (w : World) :
    (w.withJournal journal).hasFlag flag = w.hasFlag flag := rfl

theorem exists_noteMissing_eq (t : Trigger Event) (w : World) :
    ∃ journal, w.noteMissing t = w.withJournal journal := by
  unfold noteMissing
  split
  · exact ⟨_, rfl⟩
  · exact ⟨w.chronicle.journal, rfl⟩

/-- The first of some triggers is chosen that can fire, and the search is at most reported. -/
theorem exists_choose_eq (ts : List (Handle × Trigger Event)) (w : World) :
    ∃ journal, choose ts w =
      ((ts.find? fun x => w.canFire x.2).bind fun x =>
        (w.eventOf? x.2).map fun e => (x.1, x.2, e), w.withJournal journal) := by
  induction ts generalizing w with
  | nil => exact ⟨w.chronicle.journal, rfl⟩
  | cons x ts ih =>
      obtain ⟨h, t⟩ := x
      unfold choose
      cases hadmits : w.admits t with
      | false =>
          obtain ⟨journal, hrest⟩ := ih w
          exact ⟨journal, by simp [canFire, hadmits, hrest]⟩
      | true =>
          cases he : w.eventOf? t with
          | some e => exact ⟨w.chronicle.journal, by simp [canFire, hadmits, he, withJournal]⟩
          | none =>
              obtain ⟨journal, hnoted⟩ := exists_noteMissing_eq t w
              obtain ⟨journal', hrest⟩ := ih (w.withJournal journal)
              refine ⟨journal', ?_⟩
              simp only [if_true, hnoted, hrest]
              rw [List.find?_cons_of_neg (by simp [canFire, hadmits, he])]
              rfl

/-- A flag that is unset is set and logged by setting it. -/
theorem setFlag_of_unset {flag : String} {w : World} (h : w.hasFlag flag = false) :
    (w.setFlag flag).2 = record s!"flag.set {flag}"
      { w with chronicle := { w.chronicle with flags := w.chronicle.flags.set flag } } := by
  have hunset : ¬w.chronicle.flags.has flag = true := Bool.eq_false_iff.1 h
  unfold setFlag Chronicle.setFlag
  rw [if_neg hunset]
  rfl

/-- The flag that a trigger is bound to is unset while the flags admit it, so that setting it
changes it. -/
theorem bind_of_admits {t : Trigger Event} {w : World} (h : w.admits t = true) :
    w.bind t = match t.bindFlag with
      | some flag => (w.setFlag flag).2
      | none => w := by
  rw [admits, Bool.and_eq_true] at h
  unfold bind
  cases hbound : t.bindFlag with
  | none => rfl
  | some flag =>
      have hunset : w.hasFlag flag = false := by simpa [hbound] using h.2
      exact (setFlag_of_unset hunset).symm

/-- Either no trigger fires, and nothing but the journal changes, or one does: its event is given,
its bind flag is set and it is remembered. -/
theorem fireTrigger_cases (kind : TriggerKind) (p : Point) (w : World) :
    ∃ journal,
      (w.firing? kind p = none ∧ w.fireTrigger kind p = (none, w.withJournal journal)) ∨
      ∃ f, w.firing? kind p = some f ∧
        w.fireTrigger kind p = (some f.event, (w.withJournal journal).spend f) := by
  obtain ⟨journal, hchosen⟩ := exists_choose_eq (w.triggers.hits kind p) w
  refine ⟨journal, ?_⟩
  unfold fireTrigger firing?
  rw [hchosen]
  cases hfind : (w.triggers.hits kind p).find? fun x => w.canFire x.2 with
  | none => exact .inl ⟨rfl, rfl⟩
  | some x =>
      have hcan : w.canFire x.2 = true := by simpa using List.find?_some hfind
      rw [canFire, Bool.and_eq_true] at hcan
      dsimp only [Option.bind_some]
      cases w.eventOf? x.2 with
      | none => exact .inl ⟨rfl, rfl⟩
      | some e =>
          have hbound := bind_of_admits (w := w.withJournal journal) (t := x.2) hcan.1
          refine .inr ⟨⟨x.1, x.2, e⟩, rfl, ?_⟩
          dsimp only [Option.map_some]
          rw [hbound]
          rfl

/-! ## The trigger that fires -/

section

variable {kind : TriggerKind} {p : Point} {w : World} {f : Firing}

/-- The event of a trigger that fires exists. -/
theorem eventOf?_of_firing (h : w.firing? kind p = some f) :
    w.eventOf? f.trigger = some f.event := by
  obtain ⟨x, -, hx⟩ := Option.bind_eq_some_iff.mp h
  obtain ⟨e, he, rfl⟩ := Option.map_eq_some_iff.mp hx
  exact he

/-- A trigger that fires has been hit, and the flags admit it. -/
theorem mem_hits_of_firing (h : w.firing? kind p = some f) :
    (f.handle, f.trigger) ∈ w.triggers.hits kind p ∧ w.admits f.trigger = true := by
  obtain ⟨x, hfind, hx⟩ := Option.bind_eq_some_iff.mp h
  obtain ⟨e, -, rfl⟩ := Option.map_eq_some_iff.mp hx
  have hcan : w.canFire x.2 = true := by simpa using List.find?_some hfind
  rw [canFire, Bool.and_eq_true] at hcan
  exact ⟨List.mem_of_find?_eq_some hfind, hcan.1⟩

/-- The flag that a trigger that fires is bound to is unset. -/
theorem hasFlag_of_firing {flag : String} (h : w.firing? kind p = some f)
    (hflag : f.trigger.bindFlag = some flag) : w.hasFlag flag = false := by
  obtain ⟨-, hadmits⟩ := mem_hits_of_firing h
  rw [admits, hflag, Bool.and_eq_true] at hadmits
  simpa using hadmits.2

end

/-- The first trigger fires that is hit and can. -/
theorem map_handle_firing? (kind : TriggerKind) (p : Point) (w : World) :
    (w.firing? kind p).map (·.handle) =
      ((w.triggers.hits kind p).find? fun x => w.canFire x.2).map (·.1) := by
  unfold firing?
  cases hfind : (w.triggers.hits kind p).find? fun x => w.canFire x.2 with
  | none => rfl
  | some x =>
      have hcan : w.canFire x.2 = true := by simpa using List.find?_some hfind
      rw [canFire, Bool.and_eq_true, Option.isSome_iff_exists] at hcan
      obtain ⟨-, e, he⟩ := hcan
      rw [Option.bind_some, he]
      rfl

/-! ## The world after a trigger has fired -/

theorem hasFlag_spend (flag : String) (f : Firing) (w : World) :
    (w.spend f).hasFlag flag =
      (decide (f.trigger.bindFlag = some flag) || w.hasFlag flag) := by
  unfold spend
  cases f.trigger.bindFlag with
  | none => simp [hasFlag]
  | some bound =>
      rw [show decide (some bound = some flag) = (bound == flag) by
        rw [Bool.eq_iff_iff]
        simp]
      exact Chronicle.has_setFlag bound flag w.chronicle

end World

end Cutscene
