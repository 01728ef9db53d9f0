import Cutscene.Proofs.Session.Playing
import Cutscene.Proofs.Tracker.Calls
import Cutscene.Script.Interpreter

/-!
# Speakers

The interpreter remembers by name who speaks, and the entities of that name are the world's. A name
is remembered only if the scene has the entity. No request but a change of scene makes an entity
come or go (`World.stage_keeps_present`), and after a change of scene a speaker that the new scene
lacks is forgotten. So in every session the speaker is there (`SpeakerPresent`).

Cues are for the speaker only. So a world may do whatever it likes with a cue for an entity that the
scene lacks (`World.stageOrElse`): no turn of a session comes to it (`speaker_present`).
-/

namespace Cutscene

/-- If somebody speaks, the scene has an entity of that name. -/
def SpeakerPresent (c : Tracker × World) : Prop :=
  ∀ name ∈ c.1.voices.speaker, c.2.hasEntity name = true

/-! ## What operations do to the speaker -/

section

variable {σ : Type} {stage : Stage σ} {name : String}

/-- A cue makes only an entity the speaker that the stage has. -/
theorem speaker_entityStep {cue : Cue} {voices : Voices} {s : σ}
    (h : name ∈ (entityStep stage cue voices s).1.speaker) :
    name ∈ voices.speaker ∨ stage.hasEntity name s = true := by
  unfold entityStep at h
  split at h
  · cases h
  · split at h
    · cases h
    · split at h
      · rename_i hhas
        obtain rfl := Option.some.inj h
        exact .inr hhas
      · exact .inl h
  · exact .inl h
  · exact .inl h
  · exact .inl h

theorem speaker_musicStep (action : MusicAction) (voices : Voices) (s : σ) :
    (musicStep stage action voices s).1.speaker = voices.speaker := by
  unfold musicStep
  cases action with
  | set path looped =>
      dsimp only
      split <;> rfl
  | _ => rfl

/-- A change of scene makes the interpreter forget a speaker that the stage then lacks. -/
theorem voices_sceneLoadStep {path : String} {door : Option String} {voices : Voices} {s : σ}
    {speaker : String} (hspeaker : voices.speaker = some speaker) :
    (sceneLoadStep stage path door voices s).voices =
      if stage.hasEntity speaker (sceneLoadStep stage path door voices s).state then voices
      else { voices with speaker := none } := by
  simp only [sceneLoadStep, hspeaker]

/-- After a change of scene the stage has the speaker, if there is one left. -/
theorem hasEntity_of_sceneLoadStep {path : String} {door : Option String} {voices : Voices} {s : σ}
    (h : name ∈ (sceneLoadStep stage path door voices s).voices.speaker) :
    stage.hasEntity name (sceneLoadStep stage path door voices s).state = true := by
  cases hspeaker : voices.speaker with
  | none =>
      have hvoices : (sceneLoadStep stage path door voices s).voices = voices := by
        simp only [sceneLoadStep, hspeaker]
      rw [hvoices] at h
      cases hspeaker.symm.trans h
  | some speaker =>
      rw [voices_sceneLoadStep hspeaker] at h
      split at h
      · rename_i hhas
        obtain rfl := Option.some.inj (hspeaker.symm.trans h)
        exact hhas
      · cases h

/-- Who speaks after an operation that does not change the scene was the speaker before, or the
stage has an entity of that name. -/
theorem speaker_execute {event : Event} {position : Nat} {op : Operation} {now : Nat}
    {entering : Bool} {progress : Progress} {voices : Voices} {s : σ} (hop : op.loadsScene = false)
    (h : name ∈ (execute stage event position op now entering progress voices s).voices.speaker) :
    name ∈ voices.speaker ∨ stage.hasEntity name s = true := by
  cases op with
  | entity cue => exact speaker_entityStep h
  | music action =>
      have hspeaker : (musicStep stage action voices s).1.speaker = voices.speaker :=
        speaker_musicStep action voices s
      rw [← hspeaker]
      exact .inl h
  | sceneLoad path door => cases hop
  | _ => exact .inl h

namespace Tracker

/-- A turn remembers what its execution does. -/
theorem voices_follow (f : Frame) (below : List Frame) (r : Effect σ) :
    (follow stage f below r).left.1.voices = r.voices := by
  cases hflow : r.flow with
  | next => rw [follow_next hflow, Turn.left]
  | suspend p => rw [follow_suspend hflow, Turn.left]
  | call e =>
      cases hruns : isRunning ⟨f.await :: queuedBelow r below, r.voices⟩ e with
      | true => rw [follow_refused hflow hruns, Turn.left]
      | false => rw [follow_call hflow hruns, Turn.left]
  | cancel => rw [follow_cancel hflow, Turn.left]

end Tracker

end

/-! ## The entities of a world -/

namespace World

/-- A cue makes no entity come or go. -/
theorem hasEntity_entityCue (name other : String) (cue : Cue) (w : World) :
    (w.entityCue name cue).hasEntity other = w.hasEntity other := by
  unfold entityCue
  split
  · rfl
  · rename_i e he
    have hthere : w.entities.contains name = true := by
      rw [← Std.ExtTreeMap.isSome_getElem?_eq_contains, he, Option.isSome_some]
    have hinserted :
        (w.entities.insert name (e.follow cue)).contains other = w.entities.contains other := by
      rw [Std.ExtTreeMap.contains_insert, Flags.compare_beq_eq]
      by_cases heq : name = other
      · rw [← heq, hthere, Bool.or_true]
      · rw [beq_eq_false_iff_ne.2 heq, Bool.false_or]
    dsimp only
    split
    · exact hinserted
    · exact hinserted

theorem entities_flushDialog (w : World) : w.flushDialog.entities = w.entities := by
  unfold flushDialog
  split <;> rfl

theorem entities_showOptions (first second : String) (highlighted : Nat) (w : World) :
    (w.showOptions first second highlighted).entities = w.entities := by
  unfold showOptions
  split <;> rfl

theorem entities_hideOptions (w : World) : w.hideOptions.entities = w.entities := by
  unfold hideOptions
  split <;> rfl

theorem hasEntity_of_entities {w w' : World} (h : w'.entities = w.entities) (name : String) :
    w'.hasEntity name = w.hasEntity name := by
  rw [hasEntity, h, hasEntity]

/-- Nothing that is asked of a world but a change of scene makes an entity come or go. -/
theorem stage_keeps_present (load : String → Reported Scene) (present : String → Bool) :
    (stage load).Keeps fun w => ∀ name, w.hasEntity name = present name where
  note _ _ h := h
  setFlag _ _ h := h
  unsetFlag _ _ h := h
  consume _ _ h := h
  openBox _ h := h
  closeBox w h name := (hasEntity_of_entities w.entities_flushDialog name).trans (h name)
  setText _ w h name := (hasEntity_of_entities w.entities_flushDialog name).trans (h name)
  appendText _ _ h := h
  setOverlay _ _ h := h
  lockMovement _ _ h := h
  showCursor _ _ h := h
  showOptions _ _ _ w h name :=
    (hasEntity_of_entities (w.entities_showOptions _ _ _) name).trans (h name)
  hideOptions w h name := (hasEntity_of_entities w.entities_hideOptions name).trans (h name)
  showExpression _ _ h := h
  dialogClick _ h := h
  playMusic _ _ _ h := h
  stopMusic _ h := h
  pauseMusic _ h := h
  resumeMusic _ h := h
  entityCue entity cue w h name := (hasEntity_entityCue entity name cue w).trans (h name)
  setTile _ _ _ _ _ h := h

end World

/-! ## Turns -/

section

variable {load : String → Reported Scene} {now : Nat}

/-- The speaker that an execution leaves is there. -/
theorem hasEntity_of_perform {f : Frame} {op : Operation} {voices : Voices} {w : World}
    (h : ∀ name ∈ voices.speaker, w.hasEntity name = true) :
    let r := f.perform (World.stage load) now op voices w
    ∀ name ∈ r.voices.speaker, r.state.hasEntity name = true := by
  intro r name hname
  cases hscene : op.loadsScene with
  | false =>
      have hkept : ∀ name, r.state.hasEntity name = w.hasEntity name :=
        (World.stage_keeps_present load (w.hasEntity ·)).perform hscene fun _ => rfl
      rw [hkept]
      rcases speaker_execute hscene hname with hbefore | hhas
      · exact h name hbefore
      · exact hhas
  | true =>
      cases op with
      | sceneLoad path door => exact hasEntity_of_sceneLoadStep hname
      | _ => cases hscene

namespace SpeakerPresent

variable {c c' : Tracker × World}

/-- A turn leaves a speaker who is there. -/
theorem turn (h : SpeakerPresent c) :
    SpeakerPresent (Tracker.turn (World.stage load) now c.1 c.2).left := by
  obtain ⟨⟨fs, voices⟩, w⟩ := c
  cases hsettle : Tracker.settle fs with
  | nil =>
      rw [Tracker.turn_idle hsettle]
      exact h
  | cons f below =>
      obtain ⟨op, -, hturn, hleaves⟩ := Tracker.exists_left (World.stage load) now
        (show Tracker.settle (Tracker.frames ⟨fs, voices⟩) = f :: below from hsettle) w
      intro name hname
      rw [hturn, Tracker.voices_follow] at hname
      have hstate : ∀ name, (Tracker.turn (World.stage load) now ⟨fs, voices⟩ w).left.2.hasEntity
          name = (f.perform (World.stage load) now op voices w).state.hasEntity name :=
        fun name => hleaves.value_eq fun _ _ => rfl
      exact (hstate name).trans (hasEntity_of_perform h name hname)

/-- Nobody speaks when nothing has been called. -/
theorem empty (w : World) : SpeakerPresent (.empty, w) := fun _ h => by cases h

/-- What is done apart from the turns of a tick touches neither the speaker nor the entities. -/
theorem aside (haside : Aside c c') (h : SpeakerPresent c) : SpeakerPresent c' := by
  cases haside with
  | calls _ _ hworld =>
      obtain ⟨_, _, _, _, _, rfl⟩ := hworld
      exact h
  | stirs hworld =>
      obtain ⟨_, _, _, _, _, rfl⟩ := hworld
      exact h

end SpeakerPresent

end

/-! ## Cues for missing entities -/

namespace World

/-- The world as a stage that has its own way with cues for entities that the scene lacks. -/
def stageOrElse (load : String → Reported Scene) (missing : String → Cue → World → World) :
    Stage World :=
  { stage load with
    entityCue := fun name cue w =>
      if w.hasEntity name then w.entityCue name cue else missing name cue w }

/-- A world only reports them. -/
theorem entityCue_of_not_hasEntity {name : String} {w : World} (h : w.hasEntity name = false)
    (cue : Cue) :
    w.entityCue name cue = w.note ⟨.error, s!"cue for missing entity '{name}'"⟩ := by
  rw [hasEntity, ← Std.ExtTreeMap.isSome_getElem?_eq_contains, Option.isSome_eq_false_iff,
    Option.isNone_iff_eq_none] at h
  rw [entityCue, h]

theorem stageOrElse_note (load : String → Reported Scene) :
    stageOrElse load (fun name _ w => w.note ⟨.error, s!"cue for missing entity '{name}'"⟩) =
      stage load := by
  have hcue : ∀ name cue (w : World), (if w.hasEntity name then w.entityCue name cue
      else w.note ⟨.error, s!"cue for missing entity '{name}'"⟩) = w.entityCue name cue := by
    intro name cue w
    by_cases hthere : w.hasEntity name = true
    · rw [if_pos hthere]
    · rw [if_neg hthere, entityCue_of_not_hasEntity (Bool.not_eq_true _ ▸ hthere)]
  unfold stageOrElse
  simp only [hcue]
  rfl

end World

section

variable {load : String → Reported Scene} {missing : String → Cue → World → World}
  {voices : Voices} {w : World}

theorem cueSpeaker_orElse (h : ∀ name ∈ voices.speaker, w.hasEntity name = true) (cue : Cue) :
    cueSpeaker (World.stageOrElse load missing) voices cue w =
      cueSpeaker (World.stage load) voices cue w := by
  unfold cueSpeaker
  cases hspeaker : voices.speaker with
  | none => rfl
  | some speaker => exact if_pos (h speaker hspeaker)

theorem beginSay_orElse (h : ∀ name ∈ voices.speaker, w.hasEntity name = true) (say : Say) :
    beginSay (World.stageOrElse load missing) say voices w =
      beginSay (World.stage load) say voices w := by
  unfold beginSay
  cases hspeaker : voices.speaker with
  | none => rfl
  | some speaker =>
      have hfaced : (if say.expression.isSome then
          (World.stage load).showExpression say.expression w else w).hasEntity speaker = true := by
        split
        · exact h speaker hspeaker
        · exact h speaker hspeaker
      dsimp only [World.stageOrElse]
      rw [if_pos hfaced]
      rfl

/-- The end of a text is for the speaker; the text itself makes no entity come or go. -/
theorem endSpeech_orElse (h : ∀ name ∈ voices.speaker, w.hasEntity name = true) {w' : World}
    (hentities : w'.entities = w.entities) :
    endSpeech (World.stageOrElse load missing) voices w' =
      endSpeech (World.stage load) voices w' := by
  refine cueSpeaker_orElse (fun name hname => ?_) _
  rw [World.hasEntity_of_entities hentities]
  exact h name hname

theorem sayAtOnce_orElse (h : ∀ name ∈ voices.speaker, w.hasEntity name = true) (say : Say) :
    sayAtOnce (World.stageOrElse load missing) say voices w =
      sayAtOnce (World.stage load) say voices w := by
  unfold sayAtOnce
  cases say.append with
  | true => exact endSpeech_orElse h rfl
  | false => exact endSpeech_orElse h (World.entities_flushDialog w.dialogClick)

theorem typeOut_orElse (h : ∀ name ∈ voices.speaker, w.hasEntity name = true) (say : Say)
    (now offset revealed : Nat) (last : Option Nat) :
    typeOut (World.stageOrElse load missing) say voices now offset revealed last w =
      typeOut (World.stage load) say voices now offset revealed last w := by
  have hend : ∀ (done : Prop) [Decidable done] (p : Progress) (w' : World),
      w'.entities = w.entities →
      (if done then (Flow.next, endSpeech (World.stageOrElse load missing) voices w')
        else (Flow.suspend p, w')) =
      if done then (Flow.next, endSpeech (World.stage load) voices w')
        else (Flow.suspend p, w') := by
    intro done _ p w' hw'
    rw [endSpeech_orElse h hw']
  have hclick : (if revealed % dialogClickInterval = 0 then
      (World.stage load).dialogClick w else w).entities = w.entities := by
    split <;> rfl
  unfold typeOut
  dsimp only
  split
  · exact hend _ _ _ hclick
  · exact hend _ _ _ rfl

theorem sayStep_orElse (h : ∀ name ∈ voices.speaker, w.hasEntity name = true) (say : Say)
    (now : Nat) (entering : Bool) (progress : Progress) :
    sayStep (World.stageOrElse load missing) say voices now entering progress w =
      sayStep (World.stage load) say voices now entering progress w := by
  have hbegun : ∀ w', w' = (if entering then beginSay (World.stage load) say voices w else w) →
      ∀ name ∈ voices.speaker, w'.hasEntity name = true := by
    intro w' hw' name hname
    rw [hw']
    split
    · exact ((World.stage_keeps_present load (w.hasEntity ·)).beginSay say voices
        (fun _ => rfl) name).trans (h name hname)
    · exact h name hname
  unfold sayStep
  rw [beginSay_orElse h]
  extract_lets w'
  split
  · rw [sayAtOnce_orElse (hbegun w' rfl)]
  · split
    · rw [typeOut_orElse (hbegun w' rfl)]
    · rw [typeOut_orElse (hbegun w' rfl)]

theorem entityStep_orElse (h : ∀ name ∈ voices.speaker, w.hasEntity name = true) (cue : Cue) :
    entityStep (World.stageOrElse load missing) cue voices w =
      entityStep (World.stage load) cue voices w := by
  unfold entityStep
  split
  · rfl
  · rfl
  · rfl
  · rename_i speaker hspeaker
    exact congrArg (voices, ·) (if_pos (h speaker hspeaker))
  · rename_i speaker _ _ _ hspeaker
    exact congrArg (voices, ·) (if_pos (h speaker hspeaker))

/-- No operation gives a cue to an entity that the scene lacks, if the speaker is there. -/
theorem execute_orElse (h : ∀ name ∈ voices.speaker, w.hasEntity name = true) (event : Event)
    (position : Nat) (op : Operation) (now : Nat) (entering : Bool) (progress : Progress) :
    execute (World.stageOrElse load missing) event position op now entering progress voices w =
      execute (World.stage load) event position op now entering progress voices w := by
  cases op with
  | say say => rw [execute, sayStep_orElse h, execute]
  | entity cue => rw [execute, entityStep_orElse h, execute]
  | _ => rfl

/-- No turn gives a cue to an entity that the scene lacks, if the speaker is there. -/
theorem turn_orElse {c : Tracker × World} (h : SpeakerPresent c) (now : Nat) :
    Tracker.turn (World.stageOrElse load missing) now c.1 c.2 =
      Tracker.turn (World.stage load) now c.1 c.2 := by
  obtain ⟨⟨fs, voices⟩, w⟩ := c
  unfold Tracker.turn
  split
  · rfl
  · split
    · rfl
    · rename_i f below _ _ op _
      have hsaid : ∀ line, ∀ name ∈ voices.speaker, (w.note line).hasEntity name = true :=
        fun _ => h
      exact congrArg (Tracker.follow (World.stage load) f below)
        (execute_orElse (hsaid _) f.event f.cursor op now f.justEntered f.progress)

end

/-! ## Sessions -/

namespace Session

section

variable [Interpreter] {sources : Sources} {s : Session}

theorem Reached.speakerPresent (hs : Reached sources s) : SpeakerPresent s.moment :=
  ReachedWith.invariant (fun _ => .empty _) (fun _ _ => .aside) (fun _ _ _ h => h.turn)
    (fun c _ => .empty c.2) (fun _ w _ h name hname =>
      (World.hasEntity_of_entities w.entities_flushDialog name).trans (h name hname)) hs

/-- In every session, over any scenes and scripts and whatever is pressed and wherever the player
walks, the scene has the entity that speaks, if there is one. So it is at every moment of the next
tick, across calls and changes of scene, whether the tick returns or not. And no cue is for an
entity that the scene lacks: whatever a world would do with one, no turn of the tick would change. -/
theorem speaker_present (hs : Reached sources s) :
    SpeakerPresent s.moment ∧
      ∀ c, Relation.ReflTransGen (Tracker.Goes (stage sources) (beginFrame sources s).now)
        (beginFrame sources s).moment c →
          SpeakerPresent c ∧ ∀ (missing : String → Cue → World → World),
            Tracker.turn (World.stageOrElse sources.scene missing) (beginFrame sources s).now
              c.1 c.2 = Tracker.turn (stage sources) (beginFrame sources s).now c.1 c.2 := by
  refine ⟨hs.speakerPresent, ?_⟩
  intro c hpath
  have hpresent : SpeakerPresent c :=
    invariant_moment (Q := fun _ _ => True) (fun _ _ => .aside) (fun _ _ _ h => h.turn)
      (fun _ _ => trivial) hs.speakerPresent hpath
  exact ⟨hpresent, fun missing => turn_orElse hpresent _⟩

end

/-- A hall where a cat says something, and from where the scene changes to a tower without a cat. -/
def catSources : Sources where
  scene path :=
    if path = "scene.json" then
      ([], .ok { scenery [.entity (.speaker (some "cat")), .say ⟨"Hi", none, 0, false⟩,
          .sceneLoad "tower.json" none, .entity .animationStop] with
        entities := [("cat", .origin)] })
    else ([], .ok { scenery [] with name := "tower" })
  script _ := .error .notFound

/-- After the first frame the cat speaks. In the tick of the second one the scene changes, and then
nobody does. -/
theorem speaker_present_cat :
    ∃ s, Reached catSources s ∧ s.tracker.voices.speaker = some "cat" ∧
      SpeakerPresent s.moment ∧
      (∀ c, Relation.ReflTransGen (Tracker.Goes (stage catSources) (beginFrame catSources s).now)
        (beginFrame catSources s).moment c →
          SpeakerPresent c ∧ ∀ (missing : String → Cue → World → World),
            Tracker.turn (World.stageOrElse catSources.scene missing) (beginFrame catSources s).now
              c.1 c.2 = Tracker.turn (stage catSources) (beginFrame catSources s).now c.1 c.2) ∧
      ∃ c, Relation.ReflTransGen (Tracker.Goes (stage catSources) (beginFrame catSources s).now)
        (beginFrame catSources s).moment c ∧
          c.2.scene = "tower" ∧ c.1.voices.speaker = none := by
  have hplay : ∃ s₀ t₀ w₀ s c₁ c₂, load catSources .standard "scene.json" = ([], .ok s₀) ∧
      Returns catSources s₀ (.suspended, t₀, w₀) ∧
      finishFrame catSources .suspended
        { beginFrame catSources s₀ with tracker := t₀, world := w₀ } = s ∧
      s.tracker.voices.speaker = some "cat" ∧
      Tracker.Goes (stage catSources) (beginFrame catSources s).now
        (beginFrame catSources s).moment c₁ ∧
      Tracker.Goes (stage catSources) (beginFrame catSources s).now c₁ c₂ ∧
      c₂.2.scene = "tower" ∧ c₂.1.voices.speaker = none :=
    ⟨_, _, _, _, (_, _), (_, _), rfl, .more rfl (.ended rfl), rfl, rfl, rfl, rfl, rfl, rfl⟩
  obtain ⟨s₀, t₀, w₀, s, c₁, c₂, hload, hreturns, hframe, hspeaker, hgo, hgo', hscene, hnone⟩ :=
    hplay
  have hs : Reached catSources s := by
    rw [← hframe, ← frame_eq hreturns]
    exact .frame (.loaded hload) hreturns fun _ _ => trivial
  obtain ⟨hpresent, hmoments⟩ := speaker_present hs
  exact ⟨s, hs, hspeaker, hpresent, hmoments, c₂, .tail (.single hgo) hgo', hscene, hnone⟩

end Session

end Cutscene
