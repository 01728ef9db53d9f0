import Cutscene.Proofs.Session.FlagHistory

/-!
# Gates are passed once

A trigger that fires sets the flag that it is bound to, and while the flag is set no trigger fires
that is bound to it: not this one, no other one of the scene, and none of a scene that is entered
later, since flags outlast scenes. So between two firings of triggers with one flag the flag has
been unset. Nothing does that but an operation or a script (`Happening.Unsets`), and the history of
the flags (`Session.Eventful`) says which.
-/

namespace Cutscene

namespace Flags

theorem has_foldl_set {flags : Flags} {flag : String} (h : flags.has flag = true)
    (names : List String) : (names.foldl set flags).has flag = true := by
  induction names generalizing flags with
  | nil => exact h
  | cons name names ih =>
      refine ih ?_
      rw [has_set, h, Bool.or_true]

end Flags

namespace Happening

/-- Whether a trigger fires that is bound to a flag. -/
def firesBound (flag : String) : Happening → Bool
  | fires f => f.trigger.bindFlag == some flag
  | _ => false

/-- An operation unsets a flag, or a script calls the function that unsets it. -/
inductive Unsets (flag : String) : Happening → Prop
  | operation : Unsets flag (.unsets flag)
  | script : Unsets flag (.calls (.unsetFlag flag))

variable {flag : String} {flags : Flags} {hs : List Happening}

/-- Whatever else happens, a flag that is set stays set. -/
theorem has_change_of_not_unsets {x : Happening} (hx : ¬x.Unsets flag)
    (h : flags.has flag = true) : (x.change flags).has flag = true := by
  cases x with
  | fires f =>
      show (f.trigger.bindFlag.elim flags flags.set).has flag = true
      cases f.trigger.bindFlag with
      | none => exact h
      | some bound => rw [Option.elim_some, Flags.has_set, h, Bool.or_true]
  | sets name => rw [change, Flags.has_set, h, Bool.or_true]
  | unsets name =>
      have hne : name ≠ flag := fun heq => hx (heq ▸ .operation)
      rw [change, Flags.has_unset, h, Bool.and_true, bne_iff_ne]
      exact hne
  | enters names => exact Flags.has_foldl_set h names
  | calls x =>
      cases x with
      | setFlag name => rw [change, HostCall.change, Flags.has_set, h, Bool.or_true]
      | unsetFlag name =>
          have hne : name ≠ flag := fun heq => hx (heq ▸ .script)
          rw [change, HostCall.change, Flags.has_unset, h, Bool.and_true, bne_iff_ne]
          exact hne
      | callEvent name | logEvent entry => exact h

/-- What was set and no longer is has been unset, and the first time it was set until then. -/
theorem exists_unsets (hset : flags.has flag = true) (hunset : (replay hs flags).has flag = false) :
    ∃ earlier x later, hs = earlier ++ x :: later ∧ x.Unsets flag ∧
      (replay earlier flags).has flag = true := by
  induction hs generalizing flags with
  | nil => cases hset.symm.trans hunset
  | cons x hs ih =>
      by_cases hx : x.Unsets flag
      · exact ⟨[], x, hs, rfl, hx, hset⟩
      · obtain ⟨earlier, y, later, rfl, hy, hearlier⟩ :=
          ih (has_change_of_not_unsets hx hset) hunset
        exact ⟨x :: earlier, y, later, rfl, hy, hearlier⟩

/-- The flag that a trigger is bound to is set when it has fired. -/
theorem has_change_fires {f : Firing} (hf : f.trigger.bindFlag = some flag) :
    ((fires f).change flags).has flag = true := by
  rw [change, hf, Option.elim_some, Flags.has_set, beq_self_eq_true, Bool.true_or]

namespace Lawful

/-- Between two firings that are bound to a flag the flag is unset. -/
theorem exists_unsets_between {before between after : List Happening} {f g : Firing}
    (h : Lawful flags (before ++ fires f :: (between ++ fires g :: after)))
    (hf : f.trigger.bindFlag = some flag) (hg : g.trigger.bindFlag = some flag) :
    ∃ earlier x later, between = earlier ++ x :: later ∧ x.Unsets flag ∧
      (replay (before ++ fires f :: earlier) flags).has flag = true := by
  obtain ⟨-, -, hbetween⟩ := lawful_append.1 h
  obtain ⟨-, hsecond, -⟩ := lawful_append.1 hbetween
  obtain ⟨earlier, x, later, heq, hx, hearlier⟩ :=
    exists_unsets (has_change_fires hf) (hsecond flag hg)
  refine ⟨earlier, x, later, heq, hx, ?_⟩
  rw [replay_append]
  exact hearlier

/-- While a flag is set and nothing unsets it, nothing fires that is bound to it. -/
theorem countP_eq_zero (h : Lawful flags hs) (hset : flags.has flag = true)
    (hs' : ∀ x ∈ hs, ¬x.Unsets flag) : hs.countP (firesBound flag) = 0 := by
  induction hs generalizing flags with
  | nil => rfl
  | cons x hs ih =>
      obtain ⟨hx, hrest⟩ := h
      have hkept := has_change_of_not_unsets (hs' x List.mem_cons_self) hset
      have hquiet : firesBound flag x = false := by
        cases x with
        | fires f =>
            refine beq_eq_false_iff_ne.2 fun hf => ?_
            cases hset.symm.trans (hx flag hf)
        | _ => rfl
      rw [List.countP_cons, hquiet, ih hrest hkept fun y hy => hs' y (List.mem_cons_of_mem x hy)]
      rfl

/-- While nothing unsets a flag, at most one trigger fires that is bound to it. -/
theorem countP_le_one (h : Lawful flags hs) (hs' : ∀ x ∈ hs, ¬x.Unsets flag) :
    hs.countP (firesBound flag) ≤ 1 := by
  induction hs generalizing flags with
  | nil => exact Nat.zero_le 1
  | cons x hs ih =>
      obtain ⟨-, hrest⟩ := h
      have hothers := fun y hy => hs' y (List.mem_cons_of_mem x hy)
      rw [List.countP_cons]
      cases hfires : firesBound flag x with
      | false => exact ih hrest hothers
      | true =>
          cases x with
          | fires f =>
              -- this one sets the flag, so it is the last one
              have hset : ((fires f).change flags).has flag = true :=
                has_change_fires (beq_iff_eq.1 hfires)
              rw [countP_eq_zero hrest hset hothers]
              exact Nat.le_refl 1
          | _ => cases hfires

end Lawful

end Happening

namespace Session

open Happening

/-- Once-gates are once. In every session over any scenes and scripts, whose flags are what is left
of all that has happened to them (`Eventful`), between two firings of triggers that are bound to one
flag, those of the next frame included, an operation or a script unsets the flag, which is set until
then. So in any stretch of the history in which nothing unsets the flag, at most one trigger fires
that is bound to it. -/
theorem gates_pass_once [Interpreter] [Interpreter.Contract] {sources : Sources}
    {hs : List Happening} {s : Session} (h : Eventful sources hs s) (flag : String) :
    s.world.chronicle.flags = replay hs .empty ∧
      (∀ before f between g after,
        hs ++ firings sources s = before ++ .fires f :: (between ++ .fires g :: after) →
        f.trigger.bindFlag = some flag → g.trigger.bindFlag = some flag →
          ∃ earlier x later, between = earlier ++ x :: later ∧ x.Unsets flag ∧
            (replay (before ++ .fires f :: earlier) .empty).has flag = true) ∧
      ∀ before stretch after, hs ++ firings sources s = before ++ (stretch ++ after) →
        (∀ x ∈ stretch, ¬x.Unsets flag) → stretch.countP (firesBound flag) ≤ 1 := by
  have hleads := h.leads.trans (Leads.beginFrame sources s)
  refine ⟨h.leads.replays, ?_, ?_⟩
  · intro before f between g after heq hf hg
    exact Lawful.exists_unsets_between (heq ▸ hleads.lawful) hf hg
  · intro before stretch after heq hquiet
    obtain ⟨-, hstretch⟩ := lawful_append.1 (heq ▸ hleads.lawful)
    exact (lawful_append.1 hstretch).1.countP_le_one hquiet

/-! ## A bell that is muffled -/

/-- A scene with one button, whose event unsets the flag that the button is bound to. -/
def muffledSources : Sources := ropeSources (.inlined [.flagUnset "rung"]) []

/-- Whether the only thing that happens is that a trigger fires that is bound to the flag. -/
def ringsOnce (hs : List Happening) : Bool :=
  match hs with
  | [.fires f] => f.trigger.bindFlag == some "rung"
  | _ => false

theorem exists_of_ringsOnce {hs : List Happening} (h : ringsOnce hs = true) :
    ∃ f : Firing, hs = [.fires f] ∧ f.trigger.bindFlag = some "rung" := by
  unfold ringsOnce at h
  split at h
  · exact ⟨_, rfl, beq_iff_eq.1 h⟩
  · cases h

/-- Whether the button is pushed in the next frame of a session without scripts, its event runs in
one turn and ends the tick in the next, and the button can be pushed again. -/
def muffles (s : Session) : Bool :=
  let b := beginFrame muffledSources s
  let does := Tracker.flagHappenings muffledSources.scene
  match does (b.tracker, b.world), Tracker.turn (stage muffledSources) b.now b.tracker b.world with
  | [.unsets "rung"], .more t w =>
    match does (t, w), Tracker.turn (stage muffledSources) b.now t w with
    | [], .ended status t w =>
      let a := afterEvents muffledSources s (status, t, w)
      let s := finishFrame muffledSources status { b with tracker := t, world := w }
      a.scripts.isNone && a.world.pendingScript.isNone &&
        ringsOnce (firings muffledSources (s.press .activate))
    | _, _ => false
  | _, _ => false

theorem exists_happens_of_muffles {s : Session} (h : muffles s = true) :
    ∃ r, FrameHappens muffledSources s r [.unsets "rung"] [] ∧
      ringsOnce (firings muffledSources ((frame muffledSources s).press .activate)) = true := by
  unfold muffles at h
  extract_lets b does at h
  split at h
  · rename_i t w hfirst hmore
    split at h
    · rename_i status t' w' hsecond hended
      rw [Bool.and_eq_true, Bool.and_eq_true, Option.isNone_iff_eq_none,
        Option.isNone_iff_eq_none] at h
      obtain ⟨⟨hscripts, hpending⟩, hrings⟩ := h
      have hevents : Tracker.RunsDoing (stage muffledSources) b.now does b.tracker b.world
          (does (b.tracker, b.world) ++ does (t, w)) (status, t', w') := .more hmore (.ended hended)
      rw [hfirst, hsecond] at hevents
      have hfollow : followHostCalls muffledSources
          (afterEvents muffledSources s (status, t', w')) = [] := by
        unfold followHostCalls World.takePendingScript
        rw [hpending]
      have hbefore : beforeScripts muffledSources s (status, t', w') =
          afterEvents muffledSources s (status, t', w') := by
        unfold beforeScripts followScene World.takePendingScript
        rw [hpending]
      refine ⟨_, ⟨hevents, [], ?_, by rw [hfollow]; rfl⟩, ?_⟩
      · unfold ScriptsCall
        rw [hbefore, hscripts]
      · rw [frame_eq hevents.runs]
        exact hrings
    · cases h
  · cases h

/-- The button is pushed in two frames, and fires in both: in between its own event has unset the
flag. -/
theorem gates_pass_once_muffled :
    ∃ s f g, Eventful muffledSources [.enters [], .fires f, .unsets "rung"] s ∧
      firings muffledSources s = [.fires g] ∧
      f.trigger.bindFlag = some "rung" ∧ g.trigger.bindFlag = some "rung" ∧
      ∃ earlier x later, [.unsets "rung"] = earlier ++ x :: later ∧ x.Unsets "rung" ∧
        (replay ([.enters []] ++ .fires f :: earlier) .empty).has "rung" = true := by
  have hplay : ∃ s, load muffledSources .standard "scene.json" = ([], .ok s) ∧
      ringsOnce (firings muffledSources (s.press .activate)) = true ∧
      muffles (s.press .activate) = true := by
    refine ⟨_, rfl, ?_, ?_⟩
    · decide +kernel
    · decide +kernel
  obtain ⟨s, hload, hrings, hmuffles⟩ := hplay
  obtain ⟨f, hfirings, hf⟩ := exists_of_ringsOnce hrings
  obtain ⟨r, hhappens, hagain⟩ := exists_happens_of_muffles hmuffles
  obtain ⟨g, hfirings', hg⟩ := exists_of_ringsOnce hagain
  have heventful := (((Eventful.loaded rfl hload).press .activate).frame hhappens).press .activate
  rw [hfirings] at heventful
  obtain ⟨-, hbetween, -⟩ := gates_pass_once heventful "rung"
  refine ⟨_, f, g, heventful, hfirings', hf, hg, ?_⟩
  exact hbetween [.enters []] f [.unsets "rung"] g [] (by rw [hfirings']; rfl) hf hg

end Session

end Cutscene
