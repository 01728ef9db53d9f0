import Mathlib.Logic.Relation
import Cutscene.Proofs.Tracker.Turns
import Cutscene.Proofs.World.Setting
import Cutscene.Session

/-!
# Asides

A session does much apart from the turns of a tick: the player walks and pushes buttons, triggers
fire, scripts are started, run and ended, and what they want to be called is called. To the tracker
and the world all of this is one or the other of two things (`Aside`): an event that the world holds
and that is not running is put on top of the stack, or something changes that neither the dialog nor
the setting depends on. What both keep is kept by everything that is done apart from the turns.

Scripts in particular change nothing but themselves, the list of what is to be called and the
chronicle (`Scripted`), so what follows the events of a frame leaves the rest of a session as it is
(`exists_rest_eq`).
-/

namespace Cutscene

/-- Nothing changes of a world but its chronicle, what the player does, the trigger that fired last
and the script that is pending. -/
def World.Stirs (w w' : World) : Prop :=
  ∃ chronicle lastTrigger player input pendingScript,
    w' = { w with chronicle, lastTrigger, player, input, pendingScript }

theorem World.Stirs.trans {w w' w'' : World} (h : w.Stirs w') (h' : w'.Stirs w'') :
    w.Stirs w'' := by
  obtain ⟨_, _, _, _, _, rfl⟩ := h
  obtain ⟨_, _, _, _, _, rfl⟩ := h'
  exact ⟨_, _, _, _, _, rfl⟩

theorem World.Stirs.refl (w : World) : w.Stirs w := ⟨_, _, _, _, _, rfl⟩

/-- The events of the world stay. -/
theorem World.Stirs.holds_iff {w w' : World} (h : w.Stirs w') (e : Event) :
    w'.Holds e ↔ w.Holds e := by
  obtain ⟨_, _, _, _, _, rfl⟩ := h
  rfl

theorem World.stirs_fireTrigger (kind : TriggerKind) (p : Point) (w : World) :
    w.Stirs (w.fireTrigger kind p).2 := by
  obtain ⟨chronicle, lastTrigger, heq⟩ := exists_fireTrigger_eq kind p w
  rw [heq]
  exact ⟨_, _, _, _, _, rfl⟩

/-- One thing that is done apart from the turns of a tick. -/
inductive Aside (c : Tracker × World) : Tracker × World → Prop
  /-- An event is called. -/
  | calls {e : Event} {w : World} (he : c.2.Holds e) (hfree : c.1.isRunning e = false)
      (hworld : c.2.Stirs w) : Aside c ({ c.1 with frames := .start e :: c.1.frames }, w)
  /-- Only the world changes. -/
  | stirs {w : World} (hworld : c.2.Stirs w) : Aside c (c.1, w)

/-- What is done apart from the turns of a tick, one thing after the other. -/
def Asides : Tracker × World → Tracker × World → Prop := Relation.ReflTransGen Aside

theorem Asides.of_stirs {t : Tracker} {w w' : World} (h : w.Stirs w') : Asides (t, w) (t, w') :=
  .single (.stirs h)

theorem Asides.refl (c : Tracker × World) : Asides c c := Relation.ReflTransGen.refl

theorem Asides.trans {c c' c'' : Tracker × World} (h : Asides c c') (h' : Asides c' c'') :
    Asides c c'' :=
  Relation.ReflTransGen.trans h h'

/-- What every single aside keeps, asides keep. -/
theorem Asides.invariant {I : Tracker × World → Prop} (hI : ∀ c c', Aside c c' → I c → I c')
    {c c' : Tracker × World} (h : Asides c c') (hc : I c) : I c' := by
  induction h with
  | refl => exact hc
  | tail _ haside ih => exact hI _ _ haside ih

namespace Session

variable [Interpreter]

/-! ## What is changed after the events of a frame -/

/-- What scripts change of a session: themselves, what they want to be called, and the chronicle of
the world. -/
def Scripted (s s' : Session) : Prop :=
  ∃ scripts calls chronicle, s' = { s with scripts, calls, world := { s.world with chronicle } }

namespace Scripted

variable {s s' s'' : Session} (sources : Sources)

theorem refl (s : Session) : Scripted s s := ⟨_, _, _, rfl⟩

theorem trans (h : Scripted s s') (h' : Scripted s' s'') : Scripted s s'' := by
  obtain ⟨_, _, _, rfl⟩ := h
  obtain ⟨_, _, _, rfl⟩ := h'
  exact ⟨_, _, _, rfl⟩

theorem startScripts (path : String) (s : Session) :
    Scripted s (s.startScripts sources path).2 := by
  unfold Session.startScripts
  dsimp only
  split <;> exact ⟨_, _, _, rfl⟩

theorem closeScripts (s : Session) : Scripted s s.closeScripts := by
  unfold Session.closeScripts
  split
  · exact ⟨_, _, _, rfl⟩
  · exact .refl s

theorem swapScripts (script : Option String) (s : Session) :
    Scripted s (s.swapScripts sources script) := by
  have hclosed : Scripted s { s.closeScripts with calls := #[] } :=
    (closeScripts s).trans ⟨_, _, _, rfl⟩
  unfold Session.swapScripts
  dsimp only
  split
  · exact hclosed
  · rename_i path
    have hstarted := hclosed.trans (startScripts sources path _)
    split
    · rename_i heq
      rwa [heq] at hstarted
    · rename_i heq
      rw [heq] at hstarted
      exact hstarted.trans ⟨_, _, _, rfl⟩

/-- Whether the scene has changed or not, no script is pending then. -/
theorem followScene (s : Session) :
    Scripted { s with world := { s.world with pendingScript := none } }
      (s.followScene sources) := by
  unfold Session.followScene
  split
  · rename_i script w htaken
    obtain ⟨-, rfl⟩ := Prod.mk.inj htaken
    exact swapScripts sources script _
  · rename_i htaken
    obtain ⟨hnone, -⟩ := Prod.mk.inj htaken
    have hsame : { s with world := { s.world with pendingScript := none } } = s := by
      rw [← hnone]
    rw [hsame]
    exact .refl s

theorem runScripts (s : Session) : Scripted s (s.runScripts sources) := by
  unfold Session.runScripts
  split
  · exact ⟨_, _, _, rfl⟩
  · exact .refl s

end Scripted

/-- What calls change of a session: the stack, and something may be told. -/
def Called (s s' : Session) : Prop :=
  ∃ tracker journal, s' = { s with tracker, world := s.world.withJournal journal }

theorem Called.trans {s s' s'' : Session} (h : Called s s') (h' : Called s' s'') :
    Called s s'' := by
  obtain ⟨_, _, rfl⟩ := h
  obtain ⟨_, _, rfl⟩ := h'
  exact ⟨_, _, rfl⟩

section

variable (sources : Sources)

theorem exists_call_eq (e : Event) (s : Session) :
    ∃ journal, s.call sources e =
      { s with
        world := s.world.withJournal journal
        tracker := { s.tracker with
          frames := if s.tracker.isRunning e then s.tracker.frames
            else .start e :: s.tracker.frames } } := by
  unfold call Tracker.call
  cases s.tracker.isRunning e with
  | true => exact ⟨_, rfl⟩
  | false => exact ⟨_, rfl⟩

theorem called_answerCall (s : Session) (name : String) : Called s (s.answerCall sources name) := by
  unfold answerCall
  split
  · rename_i e _
    obtain ⟨journal, heq⟩ := exists_call_eq sources e s
    exact ⟨_, journal, heq⟩
  · exact ⟨_, _, rfl⟩

/-- Whatever is called, only the stack grows and something may be told. -/
theorem called_answerCalls (s : Session) :
    Called { s with calls := #[] } (s.answerCalls sources) := by
  refine List.foldlRecOn s.calls.toList (answerCall sources) (motive := Called _) ⟨_, _, rfl⟩
    fun s' h name _ => ?_
  exact h.trans (called_answerCall sources s' name)

/-- What follows the events of a frame and the closing of an idle box changes the stack, the scripts
and the chronicle, and nothing is pending or left to be called. -/
theorem exists_rest_eq (s : Session) :
    ∃ tracker scripts chronicle,
      ((s.followScene sources).runScripts sources).answerCalls sources =
        { s with
          tracker, scripts
          calls := #[]
          world := { s.world with chronicle, pendingScript := none } } := by
  obtain ⟨scripts, calls, chronicle, hran⟩ :=
    (Scripted.followScene sources s).trans (.runScripts sources _)
  obtain ⟨tracker, journal, hanswered⟩ :=
    called_answerCalls sources ((s.followScene sources).runScripts sources)
  rw [hanswered, hran]
  exact ⟨_, _, _, rfl⟩

end

/-- A session begins with what its scene gives it, and the script is started if there is one. -/
theorem exists_load_eq {sources : Sources} {config : SessionConfig} {path : String}
    {lines : List Line} {s : Session} (h : load sources config path = (lines, .ok s)) :
    ∃ lines' first line, sources.scene path = (lines', .ok first) ∧
      let opened := opening sources config (World.ofScene first)
      s = (first.script.elim opened fun script => (opened.startScripts sources script).2).note
        line := by
  unfold load at h
  split at h
  · cases (Prod.mk.inj h).2
  · rename_i lines' first hfirst
    refine ⟨lines', first, ?_⟩
    dsimp only at h
    cases hscript : first.script with
    | none =>
        rw [hscript] at h
        exact ⟨_, hfirst, (Except.ok.inj (Prod.mk.inj h).2).symm⟩
    | some script =>
        rw [hscript] at h
        dsimp only at h
        split at h
        · cases (Prod.mk.inj h).2
        · exact ⟨_, hfirst, (Except.ok.inj (Prod.mk.inj h).2).symm⟩

theorem exists_scripted_of_load {sources : Sources} {config : SessionConfig} {path : String}
    {lines : List Line} {s : Session} (h : load sources config path = (lines, .ok s)) :
    ∃ lines' first, sources.scene path = (lines', .ok first) ∧
      Scripted (opening sources config (World.ofScene first)) s := by
  obtain ⟨lines', first, line, hfirst, rfl⟩ := exists_load_eq h
  refine ⟨lines', first, hfirst, ?_⟩
  cases first.script with
  | none => exact ⟨_, _, _, rfl⟩
  | some script => exact (Scripted.startScripts sources script _).trans ⟨_, _, _, rfl⟩

/-! ## Asides of a session -/

/-- The tracker and the world of a session. -/
def moment (s : Session) : Tracker × World := (s.tracker, s.world)

variable {s : Session}

section

variable (sources : Sources)

theorem asides_call {e : Event} (he : s.world.Holds e) :
    Asides s.moment (s.call sources e).moment := by
  unfold call Tracker.call
  cases hruns : s.tracker.isRunning e with
  | true => exact .of_stirs ⟨_, _, _, _, _, rfl⟩
  | false => exact .single (.calls he hruns ⟨_, _, _, _, _, rfl⟩)

/-- A trigger fires, and its event is called; something may stir before and after. -/
theorem asides_fire {kind : TriggerKind} {p : Point} {w w' w'' : World} {e : Event}
    (hbefore : s.world.Stirs w) (hfires : w.fireTrigger kind p = (some e, w'))
    (hafter : w'.Stirs w'') :
    Asides s.moment (call sources e { s with world := w'' }).moment := by
  have hfired : w.Stirs w' := by
    have hstirs := World.stirs_fireTrigger kind p w
    rwa [hfires] at hstirs
  have he : w''.Holds e :=
    ((hfired.trans hafter).holds_iff e).2 (World.holds_of_fireTrigger hfires)
  have hstirs : s.world.Stirs w'' := (hbefore.trans hfired).trans hafter
  exact (Asides.of_stirs hstirs).trans (asides_call sources (s := { s with world := w'' }) he)

/-- No trigger fires, and something may stir before. -/
theorem asides_of_not_fires {kind : TriggerKind} {p : Point} {w w' : World}
    (hbefore : s.world.Stirs w) (hfires : w.fireTrigger kind p = (none, w')) :
    Asides s.moment { s with world := w' }.moment := by
  have hstirs := World.stirs_fireTrigger kind p w
  rw [hfires] at hstirs
  exact .of_stirs (hbefore.trans hstirs)

theorem asides_takeWalk (s : Session) : Asides s.moment (s.takeWalk sources).moment := by
  unfold takeWalk
  split
  · rename_i p hp
    unfold walk
    split
    · exact .of_stirs ⟨_, _, _, _, _, rfl⟩
    · have hbefore : s.world.Stirs { s.world with player := p } := ⟨_, _, _, _, _, rfl⟩
      split
      · rename_i e w hfires
        exact asides_fire sources (s := { s with pendingWalk := none }) hbefore hfires (.refl w)
      · rename_i w hfires
        exact asides_of_not_fires hbefore hfires
  · exact .refl _

theorem asides_pushButton (s : Session) : Asides s.moment (s.pushButton sources).moment := by
  unfold pushButton
  split
  · split
    · rename_i e w hfires
      exact asides_fire sources (.refl _) hfires ⟨_, _, _, _, _, rfl⟩
    · rename_i w hfires
      exact asides_of_not_fires (.refl _) hfires
  · exact .refl _

/-- What the player does is done aside. -/
theorem asides_beginFrame (s : Session) : Asides s.moment (s.beginFrame sources).moment :=
  (asides_takeWalk sources s).trans (asides_pushButton sources _)

theorem Scripted.asides {s' : Session} (h : Scripted s s') : Asides s.moment s'.moment := by
  obtain ⟨_, _, _, rfl⟩ := h
  exact .of_stirs ⟨_, _, _, _, _, rfl⟩

theorem asides_press (c : Control) (s : Session) : Asides s.moment (s.press c).moment :=
  .of_stirs ⟨_, _, _, _, _, rfl⟩

theorem asides_answerCall (s : Session) (name : String) :
    Asides s.moment (s.answerCall sources name).moment := by
  unfold answerCall
  split
  · rename_i e he
    exact asides_call sources (.inl ⟨name, he⟩)
  · exact .of_stirs ⟨_, _, _, _, _, rfl⟩

theorem asides_answerCalls (s : Session) : Asides s.moment (s.answerCalls sources).moment := by
  refine List.foldlRecOn s.calls.toList (answerCall sources)
    (motive := fun s' => Asides s.moment s'.moment) ?_ fun s' h name _ => ?_
  · exact .refl _
  · exact h.trans (asides_answerCall sources s' name)

/-- What follows the events of a frame and the closing of an idle box is done aside. -/
theorem asides_rest (s : Session) :
    Asides s.moment
      ((((s.followScene sources).runScripts sources).answerCalls sources).endFrame).moment :=
  (((Asides.of_stirs ⟨_, _, _, _, _, rfl⟩).trans
    ((Scripted.followScene sources s).trans (.runScripts sources _)).asides).trans
      (asides_answerCalls sources _)).trans (.of_stirs ⟨_, _, _, _, _, rfl⟩)

/-- A session begins with the start event of its scene. -/
theorem asides_opening (config : SessionConfig) (w : World) :
    Asides (.empty, w) (opening sources config w).moment := by
  unfold opening
  dsimp only
  split
  · rename_i e he
    exact .single (.calls (.inl ⟨_, he⟩) rfl ⟨_, _, _, _, _, rfl⟩)
  · exact .refl _

variable {sources}

/-- A session that begins with a scene has been through asides only. -/
theorem exists_asides_of_load {config : SessionConfig} {path : String} {lines : List Line}
    (h : load sources config path = (lines, .ok s)) :
    ∃ scene, Asides (.empty, World.ofScene scene) s.moment := by
  obtain ⟨_, first, _, hscripted⟩ := exists_scripted_of_load h
  exact ⟨first, (asides_opening sources config (World.ofScene first)).trans hscripted.asides⟩

end

end Session

end Cutscene
