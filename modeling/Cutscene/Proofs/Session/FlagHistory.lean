import Cutscene.Proofs.Session.FlagLog

/-!
# What happens to the flags

Triggers that fire set flags, operations set and unset them, scenes that are entered bring flags of
their own, and scripts change them through the functions that they call. No other part of a session
touches a flag. So the flags are what is left when all that has happened to them (`Eventful`) is
done again, one after the other (`Eventful.leads`).

A trigger fires only if the flag that it is bound to is unset at that moment. This is carried along
as a property of the history (`Happening.Lawful`).
-/

namespace Cutscene

/-! ## Happenings -/

/-- Something that may change the flags of a session. -/
inductive Happening where
  /-- A trigger fires. -/
  | fires (f : Firing)
  /-- An operation sets a flag. -/
  | sets (flag : String)
  /-- An operation unsets a flag. -/
  | unsets (flag : String)
  /-- A scene is entered that has some flags. -/
  | enters (flags : List String)
  /-- A script calls a function. -/
  | calls (x : HostCall)

/-- The flags after a call of a script. -/
def HostCall.change (flags : Flags) : HostCall → Flags
  | setFlag name => flags.set name
  | unsetFlag name => flags.unset name
  | _ => flags

namespace Happening

/-- The flags after something has happened. -/
def change (flags : Flags) : Happening → Flags
  | fires f => f.trigger.bindFlag.elim flags flags.set
  | sets flag => flags.set flag
  | unsets flag => flags.unset flag
  | enters names => names.foldl .set flags
  | calls x => x.change flags

/-- The flags after some things have happened. -/
def replay (hs : List Happening) (flags : Flags) : Flags := hs.foldl change flags

theorem replay_append (hs hs' : List Happening) (flags : Flags) :
    replay (hs ++ hs') flags = replay hs' (replay hs flags) := List.foldl_append

theorem replay_map_calls (xs : List HostCall) (flags : Flags) :
    replay (xs.map calls) flags = xs.foldl HostCall.change flags := List.foldl_map

/-- With some flags set, a trigger can fire only if the flag that it is bound to is none of them. -/
def Allowed (flags : Flags) : Happening → Prop
  | fires f => ∀ flag ∈ f.trigger.bindFlag, flags.has flag = false
  | _ => True

/-- Each trigger that fires can. -/
def Lawful : Flags → List Happening → Prop
  | _, [] => True
  | flags, h :: hs => h.Allowed flags ∧ Lawful (h.change flags) hs

theorem lawful_append {flags : Flags} {hs hs' : List Happening} :
    Lawful flags (hs ++ hs') ↔ Lawful flags hs ∧ Lawful (replay hs flags) hs' := by
  induction hs generalizing flags with
  | nil => exact (and_iff_right trivial).symm
  | cons h hs ih =>
      rw [List.cons_append, Lawful, Lawful, ih, and_assoc]
      rfl

theorem lawful_of_not_fires {hs : List Happening} (h : ∀ f, .fires f ∉ hs) (flags : Flags) :
    Lawful flags hs := by
  induction hs generalizing flags with
  | nil => trivial
  | cons x hs ih =>
      have hrest := ih (fun f hf => h f (List.mem_cons_of_mem x hf)) (x.change flags)
      cases x with
      | fires f => exact absurd List.mem_cons_self (h f)
      | _ => exact ⟨trivial, hrest⟩

/-- All that happens to some flags, and what is left of them. -/
structure Leads (hs : List Happening) (flags flags' : Flags) : Prop where
  lawful : Lawful flags hs
  replays : flags' = replay hs flags

namespace Leads

variable {hs hs' : List Happening} {flags flags' flags'' : Flags}

theorem of_eq (h : flags' = flags) : Leads [] flags flags' := ⟨trivial, h⟩

theorem of_not_fires (h : ∀ f, .fires f ∉ hs) (hreplays : flags' = replay hs flags) :
    Leads hs flags flags' :=
  ⟨lawful_of_not_fires h flags, hreplays⟩

theorem trans (h : Leads hs flags flags') (h' : Leads hs' flags' flags'') :
    Leads (hs ++ hs') flags flags'' := by
  obtain ⟨hlawful, rfl⟩ := h
  obtain ⟨hlawful', rfl⟩ := h'
  exact ⟨lawful_append.2 ⟨hlawful, hlawful'⟩, (replay_append hs hs' flags).symm⟩

/-- And nothing more happens. -/
theorem on (h : Leads hs flags flags') (heq : flags'' = flags') : Leads hs flags flags'' :=
  heq ▸ h

end Leads

end Happening

/-! ## Chronicles and scripts -/

namespace Chronicle

theorem flags_setFlag (name : String) (c : Chronicle) :
    (c.setFlag name).2.flags = c.flags.set name :=
  Flags.ext fun other => (has_setFlag name other c).trans (Flags.has_set c.flags name other).symm

theorem flags_unsetFlag (name : String) (c : Chronicle) :
    (c.unsetFlag name).2.flags = c.flags.unset name :=
  Flags.ext fun other =>
    (has_unsetFlag name other c).trans (Flags.has_unset c.flags name other).symm

end Chronicle

/-- The functions that are called are all that scripts do to the flags. -/
theorem Chronicle.follows_change :
    Follows fun calls c c' => c'.flags = calls.foldl HostCall.change c.flags where
  silent hflags _ := hflags
  trans hfirst hrest := by rw [hrest, hfirst, List.foldl_append]
  call x r := by
    cases x with
    | setFlag name => exact r.chronicle.flags_setFlag name
    | unsetFlag name => exact r.chronicle.flags_unsetFlag name
    | callEvent name => rfl
    | logEvent entry => rfl
  returned _ _ _ := rfl

/-- They make no trigger fire. -/
theorem Happening.leads_calls {calls : List HostCall} {flags flags' : Flags}
    (h : flags' = calls.foldl HostCall.change flags) : Leads (calls.map .calls) flags flags' :=
  .of_not_fires (by simp) (h.trans (replay_map_calls calls flags).symm)

/-! ## Turns -/

/-- Whether an operation changes a flag. -/
def Operation.changesFlag : Operation → Bool
  | flagSet _ | flagUnset _ | flagOnce _ => true
  | _ => false

/-- A stage whose flags stay as they are. -/
def Stage.frozen {σ : Type} (stage : Stage σ) : Stage σ :=
  { stage with
    setFlag := fun _ s => s
    unsetFlag := fun _ s => s }

theorem perform_frozen {σ : Type} (stage : Stage σ) (now : Nat) (f : Frame) {op : Operation}
    (hop : op.changesFlag = false) (voices : Voices) (s : σ) :
    f.perform stage.frozen now op voices s = f.perform stage now op voices s := by
  cases op with
  | flagSet _ | flagUnset _ | flagOnce _ => cases hop
  | _ => rfl

namespace World

variable (load : String → Reported Scene)

theorem flags_flushDialog (w : World) : w.flushDialog.chronicle.flags = w.chronicle.flags := by
  unfold flushDialog
  split <;> rfl

/-- Nothing else that is asked of a world touches a flag. -/
theorem frozen_keeps_flags (flags : Flags) :
    (stage load).frozen.Keeps fun w => w.chronicle.flags = flags where
  note _ _ h := h
  setFlag _ _ h := h
  unsetFlag _ _ h := h
  consume _ _ h := h
  openBox _ h := h
  closeBox w h := w.flags_flushDialog.trans h
  setText _ w h := w.flags_flushDialog.trans h
  appendText _ _ h := h
  setOverlay _ _ h := h
  lockMovement _ _ h := h
  showCursor _ _ h := h
  showOptions first second highlighted w h := by
    show (showOptions first second _ w).chronicle.flags = flags
    unfold showOptions
    split <;> exact h
  hideOptions w h := by
    show w.hideOptions.chronicle.flags = flags
    unfold hideOptions
    split <;> exact h
  showExpression _ _ h := h
  dialogClick _ h := h
  playMusic _ _ _ h := h
  stopMusic _ h := h
  pauseMusic _ h := h
  resumeMusic _ h := h
  entityCue name cue w h := by
    show (w.entityCue name cue).chronicle.flags = flags
    unfold entityCue
    split
    · exact h
    · dsimp only
      split <;> exact h
  setTile _ _ _ _ _ h := h

/-- A scene that is entered brings its flags. -/
theorem flags_loadScene (path : String) (door : Option String) (w : World) :
    (loadScene load path door w).2.chronicle.flags =
      Happening.replay ((w.entered? load path).toList.map fun scene => .enters scene.flags)
        w.chronicle.flags := by
  unfold entered?
  rcases hload : load (Text.Path.join w.directory path) with ⟨lines, error | scene⟩
  · obtain ⟨journal, heq⟩ := exists_loadScene_of_error hload door
    rw [heq]
    rfl
  · obtain ⟨journal, heq⟩ := exists_loadScene_of_ok hload door
    obtain ⟨journal', player, hentered⟩ :=
      exists_enter_eq scene door (w.leaving scene door journal)
    rw [heq, hentered]
    rfl

/-- A world that begins with a scene has its flags. -/
theorem leads_ofScene (first : Scene) :
    Happening.Leads [.enters first.flags] .empty (World.ofScene first).chronicle.flags := by
  obtain ⟨journal, player, hentered⟩ := World.exists_enter_eq first none .blank
  refine .of_not_fires (by simp) ?_
  rw [World.ofScene, hentered]
  rfl

end World

/-- What an operation does to the flags of a world. -/
def Operation.flagHappenings (load : String → Reported Scene) (w : World) :
    Operation → List Happening
  | flagSet flag => [.sets flag]
  | flagUnset flag => [.unsets flag]
  | flagOnce flag => if w.hasFlag flag then [] else [.sets flag]
  | sceneLoad path _ => (w.entered? load path).toList.map fun scene => .enters scene.flags
  | _ => []

section

variable (load : String → Reported Scene) (now : Nat) (f : Frame) (voices : Voices) (w : World)

/-- Most operations leave the flags as they are. -/
theorem flags_perform_of_not_changesFlag {op : Operation} (hflag : op.changesFlag = false)
    (hscene : op.loadsScene = false) :
    (f.perform (World.stage load) now op voices w).state.chronicle.flags = w.chronicle.flags := by
  have hkept : (f.perform (World.stage load).frozen now op voices w).state.chronicle.flags =
      w.chronicle.flags := (World.frozen_keeps_flags load w.chronicle.flags).perform hscene rfl
  rwa [perform_frozen _ now f hflag] at hkept

theorem flags_perform (op : Operation) :
    (f.perform (World.stage load) now op voices w).state.chronicle.flags =
      Happening.replay (op.flagHappenings load w) w.chronicle.flags := by
  cases op with
  | flagSet flag => exact Chronicle.flags_setFlag flag _
  | flagUnset flag => exact Chronicle.flags_unsetFlag flag _
  | flagOnce flag =>
      rw [Operation.flagHappenings, Frame.perform, execute, Effect.state_plain]
      -- the same flag is asked for before and after the report
      show (if w.hasFlag flag then (Flow.cancel, (World.stage load).say _ _ w)
        else (Flow.next, (((World.stage load).say _ _ w).setFlag flag).2)).2.chronicle.flags = _
      split
      · rfl
      · exact Chronicle.flags_setFlag flag _
  | sceneLoad path door =>
      obtain ⟨said, journal, -, hstate⟩ :=
        Tracker.exists_perform_sceneLoad load f now path door voices w
      rw [hstate]
      exact World.flags_loadScene load path door (w.withJournal said)
  | _ => exact flags_perform_of_not_changesFlag load now f voices w rfl rfl

theorem Operation.fires_not_mem_flagHappenings (op : Operation) (x : Firing) :
    .fires x ∉ op.flagHappenings load w := by
  cases op with
  | flagOnce flag =>
      rw [flagHappenings]
      split <;> simp
  | _ => simp [flagHappenings]

end

namespace Tracker

/-- What the next turn does to the flags. -/
def flagHappenings (load : String → Reported Scene) (c : Tracker × World) : List Happening :=
  match settle c.1.frames with
  | [] => []
  | f :: _ => f.operation?.elim [] (Operation.flagHappenings load c.2)

/-- A turn does no more to the flags than its operation, and it makes no trigger fire. -/
theorem leads_turn (load : String → Reported Scene) (now : Nat) (c : Tracker × World) :
    Happening.Leads (flagHappenings load c) c.2.chronicle.flags
      (turn (World.stage load) now c.1 c.2).left.2.chronicle.flags := by
  obtain ⟨⟨fs, voices⟩, w⟩ := c
  unfold flagHappenings
  cases hsettle : settle fs with
  | nil =>
      rw [left_turn_idle hsettle]
      exact .of_eq rfl
  | cons f below =>
      obtain ⟨op, hop, -, hleaves⟩ :=
        exists_left (World.stage load) now (t := ⟨fs, voices⟩) hsettle w
      dsimp only
      rw [hop, Option.elim_some, hleaves.value_eq (v := fun w => w.chronicle.flags) fun _ _ => rfl]
      exact .of_not_fires (op.fires_not_mem_flagHappenings load w)
        (flags_perform load now f voices w op)

end Tracker

/-! ## Sessions -/

namespace Session

variable [Interpreter]

/-- All that happens to the flags of a session while it becomes another. -/
def Leads (hs : List Happening) (s s' : Session) : Prop :=
  Happening.Leads hs s.world.chronicle.flags s'.world.chronicle.flags

namespace Leads

variable {hs hs' : List Happening} {s s' s'' : Session}

theorem of_eq (h : s'.world.chronicle.flags = s.world.chronicle.flags) : Leads [] s s' :=
  Happening.Leads.of_eq h

theorem trans (h : Leads hs s s') (h' : Leads hs' s' s'') : Leads (hs ++ hs') s s'' :=
  Happening.Leads.trans h h'

/-- And nothing more happens. -/
theorem on (h : Leads hs s s') (h' : Leads [] s' s'') : Leads hs s s'' :=
  Happening.Leads.on h h'.replays

/-- What a part of a frame does to the flags is that a trigger may fire. -/
theorem of_gated {part : Part} (h : Gated (part.firing? s) s s') :
    Leads ((part.firing? s).toList.map .fires) s s' := by
  cases hfires : part.firing? s with
  | none =>
      rw [hfires] at h
      exact of_eq (Flags.ext h.flags)
  | some f =>
      rw [hfires] at h
      obtain ⟨kind, p, hfiring⟩ := Part.exists_firing hfires
      refine ⟨⟨fun flag hflag => World.hasFlag_of_firing hfiring hflag, trivial⟩, ?_⟩
      refine Flags.ext fun flag => (h.flags flag).trans ?_
      show _ = (f.trigger.bindFlag.elim s.world.chronicle.flags
        s.world.chronicle.flags.set).has flag
      rw [Option.any_some]
      cases hbound : f.trigger.bindFlag with
      | none => simp [World.hasFlag]
      | some bound =>
          rw [Option.elim_some, Flags.has_set, World.hasFlag, Bool.eq_iff_iff]
          simp

theorem closeIdleBox (status : TickStatus) (s : Session) :
    Leads [] s (closeIdleBox status s) := by
  unfold Session.closeIdleBox
  split
  · exact of_eq s.world.flags_flushDialog
  · exact of_eq rfl

theorem shutdown [Interpreter.Contract] (s : Session) : Leads [] s s.shutdown := by
  have hclosed : Leads [] s { s.closeScripts with tracker := .empty } :=
    of_eq (follows_closeScripts Chronicle.follows_change s)
  unfold Session.shutdown
  dsimp only
  split
  · exact hclosed.on (of_eq (World.flags_flushDialog _))
  · exact hclosed

end Leads

/-- The triggers that fire in the next frame, at most one for each part that can fire one. -/
def firings (sources : Sources) (s : Session) : List Happening :=
  (Part.walk.firing? (Part.walk.before sources s)).toList.map .fires ++
    (Part.push.firing? (Part.push.before sources s)).toList.map .fires

theorem Leads.beginFrame (sources : Sources) (s : Session) :
    Leads (firings sources s) s (s.beginFrame sources) :=
  (of_gated (Gated.takeWalk sources s)).trans (of_gated (Gated.pushButton sources _))

variable [Interpreter.Contract]

/-- The next frame returns: its events do something to the flags, and its scripts call some
functions. -/
structure FrameHappens (sources : Sources) (s : Session) (r : TickStatus × Tracker × World)
    (hs : List Happening) (calls : List HostCall) : Prop where
  events : Tracker.RunsDoing (stage sources) (beginFrame sources s).now
    (Tracker.flagHappenings sources.scene) (beginFrame sources s).tracker
    (beginFrame sources s).world hs r
  scripts : ∃ ticked, (beforeScripts sources s r).ScriptsCall sources ticked ∧
    calls = followHostCalls sources (afterEvents sources s r) ++ ticked

/-- Whatever a frame that returns does to the flags can be written down. -/
theorem FrameReturns.exists_happens {sources : Sources} {s : Session}
    {r : TickStatus × Tracker × World} (h : FrameReturns sources s r) :
    ∃ hs calls, FrameHappens sources s r hs calls := by
  obtain ⟨hs, hevents⟩ :=
    Tracker.Runs.exists_doing (Tracker.flagHappenings sources.scene) h.events
  obtain ⟨calls, hcalls⟩ := h.scripts.exists_calls
  exact ⟨hs, _, hevents, calls, hcalls, rfl⟩

/-- All that a frame does to the flags. -/
theorem Leads.frame {sources : Sources} {s : Session} {r : TickStatus × Tracker × World}
    {hs : List Happening} {calls : List HostCall} (h : FrameHappens sources s r hs calls) :
    Leads (firings sources s ++ hs ++ calls.map .calls) s (frame sources s) := by
  obtain ⟨ticked, hticked, rfl⟩ := h.scripts
  have hevents : Happening.Leads hs (Session.beginFrame sources s).world.chronicle.flags
      r.2.2.chronicle.flags :=
    h.events.relates
      (R := fun ds w w' => Happening.Leads ds w.chronicle.flags w'.chronicle.flags)
      (fun h h' => h.trans h') (Tracker.leads_turn sources.scene _)
  have hafter : Leads (firings sources s ++ hs) s (afterEvents sources s r) :=
    (Happening.Leads.trans (beginFrame sources s) hevents).on (closeIdleBox r.1 _).replays
  exact hafter.trans (Happening.leads_calls
    (follows_frame Chronicle.follows_change h.events.runs hticked))

/-! ## Histories -/

/-- A session that has begun with a scene and been played for some frames, and may have been shut
down, with all that has happened to its flags, the oldest first. -/
inductive Eventful (sources : Sources) : List Happening → Session → Prop
  | loaded {config : SessionConfig} {path : String} {lines lines' : List Line} {first : Scene}
      {s : Session} (hfirst : sources.scene path = (lines', .ok first))
      (hload : load sources config path = (lines, .ok s)) :
      Eventful sources (.enters first.flags :: (loadHostCalls sources config first).map .calls) s
  | press {hs : List Happening} {s : Session} (c : Control) (h : Eventful sources hs s) :
      Eventful sources hs (s.press c)
  | walkTo {hs : List Happening} {s : Session} (p : Point) (h : Eventful sources hs s) :
      Eventful sources hs (s.walkTo p)
  | frame {hs hs' : List Happening} {calls : List HostCall} {s : Session}
      {r : TickStatus × Tracker × World} (h : Eventful sources hs s)
      (hhappens : FrameHappens sources s r hs' calls) :
      Eventful sources (hs ++ (firings sources s ++ hs' ++ calls.map .calls)) (frame sources s)
  | shutdown {hs : List Happening} {s : Session} (h : Eventful sources hs s) :
      Eventful sources hs s.shutdown

variable {sources : Sources} {s : Session}

/-- The flags of a session are what is left of all that has happened to them. -/
theorem Eventful.leads {hs : List Happening} (h : Eventful sources hs s) :
    Happening.Leads hs .empty s.world.chronicle.flags := by
  induction h with
  | loaded hfirst hload =>
      exact (World.leads_ofScene _).trans
        (Happening.leads_calls (follows_load Chronicle.follows_change hfirst hload))
  | press c _ ih => exact ih
  | walkTo p _ ih => exact ih
  | frame _ hhappens ih => exact ih.trans (Leads.frame hhappens)
  | @shutdown hs s _ ih => exact ih.on (Leads.shutdown s).replays

end Session

end Cutscene
