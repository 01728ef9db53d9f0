import Cutscene.Proofs.Session.SceneChanges
import Cutscene.Proofs.Session.Speakers
import Cutscene.Proofs.Tracker.Tallies

/-!
# The track that plays

Two parts of a session remember the track: the interpreter, so as not to ask for a track that it has
asked for last, and the world, which plays it. They never differ (`InTune`). A turn that executes no
music command changes neither: but for the commands nothing that is asked of a world touches the
music, and a scene that is entered leaves it playing. A command that is skipped asks for what is
playing. So the world plays what it would if every command were obeyed (`music_never_drifts`).
-/

namespace Cutscene

/-! ## Music commands -/

/-- The music command of an operation, if it is one. -/
def Operation.musicAction? : Operation → Option MusicAction
  | music action => some action
  | _ => none

/-- The track after a music command, if it is obeyed. -/
def MusicAction.track : MusicAction → Option String → Option String
  | set path _, _ => some path
  | stop, _ => none
  | pause, playing => playing
  | play, playing => playing

/-- The music command that the next turn executes, if it executes one. -/
def Tracker.commanded {σ : Type} (c : Tracker × σ) : List MusicAction :=
  match settle c.1.frames with
  | [] => []
  | f :: _ => (f.operation?.bind Operation.musicAction?).toList

namespace Stage

variable {σ : Type}

/-- Does what a music command asks for, whatever has been asked for before. -/
def obey (stage : Stage σ) (s : σ) : MusicAction → σ
  | .set path looped => stage.playMusic path looped s
  | .stop => stage.stopMusic s
  | .pause => stage.pauseMusic s
  | .play => stage.resumeMusic s

/-- A stage without an orchestra: it changes no track. -/
def tuneless (stage : Stage σ) : Stage σ :=
  { stage with
    playMusic := fun _ _ s => s
    stopMusic := fun s => s }

end Stage

section

variable {σ : Type} (stage : Stage σ)

/-- Only music commands change the track. -/
theorem perform_tuneless (now : Nat) (f : Frame) {op : Operation} (hop : op.musicAction? = none)
    (voices : Voices) (s : σ) :
    f.perform stage.tuneless now op voices s = f.perform stage now op voices s := by
  cases op with
  | music action => cases hop
  | _ => rfl

theorem music_entityStep (cue : Cue) (voices : Voices) (s : σ) :
    (entityStep stage cue voices s).1.music = voices.music := by
  unfold entityStep
  split
  · rfl
  · split
    · rfl
    · split <;> rfl
  · rfl
  · rfl
  · rfl

theorem music_sceneLoadStep (path : String) (door : Option String) (voices : Voices) (s : σ) :
    (sceneLoadStep stage path door voices s).voices.music = voices.music := by
  cases hspeaker : voices.speaker with
  | none => simp only [sceneLoadStep, hspeaker]
  | some speaker =>
      rw [voices_sceneLoadStep hspeaker]
      split <;> rfl

/-- Only music commands change what the interpreter remembers of the track. -/
theorem music_voices_perform (now : Nat) (f : Frame) {op : Operation}
    (hop : op.musicAction? = none) (voices : Voices) (s : σ) :
    (f.perform stage now op voices s).voices.music = voices.music := by
  cases op with
  | entity cue => exact music_entityStep stage cue voices _
  | sceneLoad path door => exact music_sceneLoadStep stage path door voices _
  | music action => cases hop
  | _ => rfl

end

namespace World

variable (load : String → Reported Scene)

theorem music_flushDialog (w : World) : w.flushDialog.music = w.music := by
  unfold flushDialog
  split <;> rfl

/-- Nothing that is asked of a world without an orchestra touches the track. -/
theorem tuneless_keeps_music (track : Option String) :
    (stage load).tuneless.Keeps fun w => w.music = track where
  note _ _ h := h
  setFlag _ _ h := h
  unsetFlag _ _ h := h
  consume _ _ h := h
  openBox _ h := h
  closeBox w h := w.music_flushDialog.trans h
  setText _ w h := w.music_flushDialog.trans h
  appendText _ _ h := h
  setOverlay _ _ h := h
  lockMovement _ _ h := h
  showCursor _ _ h := h
  showOptions first second highlighted w h := by
    show (showOptions first second _ w).music = track
    unfold showOptions
    split <;> exact h
  hideOptions w h := by
    show w.hideOptions.music = track
    unfold hideOptions
    split <;> exact h
  showExpression _ _ h := h
  dialogClick _ h := h
  playMusic _ _ _ h := h
  stopMusic _ h := h
  pauseMusic _ h := h
  resumeMusic _ h := h
  entityCue name cue w h := by
    show (w.entityCue name cue).music = track
    unfold entityCue
    split
    · exact h
    · dsimp only
      split <;> exact h
  setTile _ _ _ _ _ h := h

/-- A music command that is obeyed leaves no trace of the track that was there before, unless it
pauses it or lets it go on. -/
theorem music_obey (w : World) (action : MusicAction) :
    ((stage load).obey w action).music = action.track w.music := by
  cases action with
  | _ => rfl

theorem music_obeys (w : World) (actions : List MusicAction) :
    (actions.foldl (stage load).obey w).music = actions.foldl (fun m a => a.track m) w.music := by
  induction actions generalizing w with
  | nil => rfl
  | cons action actions ih => exact (ih _).trans (by rw [music_obey, List.foldl_cons])

end World

/-! ## In tune -/

/-- What is done apart from the turns of a tick does not touch the track. -/
theorem Aside.music_eq {c c' : Tracker × World} (h : Aside c c') :
    c'.1.voices.music = c.1.voices.music ∧ c'.2.music = c.2.music := by
  cases h with
  | calls _ _ hworld =>
      obtain ⟨_, _, _, _, _, rfl⟩ := hworld
      exact ⟨rfl, rfl⟩
  | stirs hworld =>
      obtain ⟨_, _, _, _, _, rfl⟩ := hworld
      exact ⟨rfl, rfl⟩

/-- The interpreter and the world remember the same track. -/
def InTune (c : Tracker × World) : Prop := c.1.voices.music = c.2.music

namespace InTune

variable (load : String → Reported Scene) (now : Nat) {c c' : Tracker × World}

/-- What does not touch the track that either remembers leaves them in tune. -/
theorem of_eq (h : InTune c) (hvoices : c'.1.voices.music = c.1.voices.music)
    (hmusic : c'.2.music = c.2.music) : InTune c' :=
  (hvoices.trans h).trans hmusic.symm

/-- A music command is obeyed, or it asks for the track that plays. -/
theorem musicStep {voices : Voices} {w : World} (h : voices.music = w.music)
    (action : MusicAction) :
    let r := musicStep (World.stage load) action voices w
    r.1.music = r.2.music ∧ r.2.music = action.track w.music := by
  unfold Cutscene.musicStep
  cases action with
  | set path looped =>
      dsimp only
      split
      · rename_i hplays
        exact ⟨h, h.symm.trans hplays⟩
      · exact ⟨rfl, rfl⟩
  | stop => exact ⟨rfl, rfl⟩
  | pause => exact ⟨h, rfl⟩
  | play => exact ⟨h, rfl⟩

/-- An operation leaves both in tune, and the world with the track that it asks for. -/
theorem perform {f : Frame} {op : Operation} {voices : Voices} {w : World}
    (h : voices.music = w.music) :
    let r := f.perform (World.stage load) now op voices w
    r.voices.music = r.state.music ∧
      r.state.music = op.musicAction?.toList.foldl (fun m a => a.track m) w.music := by
  intro r
  cases haction : op.musicAction? with
  | some action =>
      cases op with
      | music action' =>
          obtain rfl := Option.some.inj haction
          exact musicStep load (w := (World.stage load).say _ _ w) h action'
      | _ => cases haction
  | none =>
      have hstate : r.state.music = w.music := by
        cases hscene : op.loadsScene with
        | false =>
            have htuneless : (f.perform (World.stage load).tuneless now op voices w).state.music =
                w.music := (World.tuneless_keeps_music load w.music).perform hscene rfl
            rwa [perform_tuneless _ now f haction] at htuneless
        | true =>
            cases op with
            | sceneLoad path door =>
                obtain ⟨said, journal, -, hloaded⟩ :=
                  Tracker.exists_perform_sceneLoad load f now path door voices w
                rw [show r.state = _ from hloaded]
                exact congrArg Lasting.music
                  (World.lasting_loadScene load path door (w.withJournal said))
            | _ => cases hscene
      have hvoices : r.voices.music = voices.music := music_voices_perform _ now f haction voices w
      exact ⟨(hvoices.trans h).trans hstate.symm, hstate⟩

/-- A turn leaves both in tune, and the world with the track that it would play if it had obeyed. -/
theorem turn (h : InTune c) :
    let c' := (Tracker.turn (World.stage load) now c.1 c.2).left
    InTune c' ∧ c'.2.music = ((Tracker.commanded c).foldl (World.stage load).obey c.2).music := by
  obtain ⟨⟨fs, voices⟩, w⟩ := c
  intro c'
  rw [World.music_obeys]
  unfold Tracker.commanded
  cases hsettle : Tracker.settle fs with
  | nil =>
      have hc' : c' = (⟨[], voices⟩, w) := Tracker.left_turn_idle hsettle voices w
      rw [hc']
      exact ⟨h, rfl⟩
  | cons f below =>
      obtain ⟨op, hop, hturn, hleaves⟩ :=
        Tracker.exists_left (World.stage load) now (t := ⟨fs, voices⟩) hsettle w
      obtain ⟨hperformed, htrack⟩ := perform load now (f := f) h
      -- what becomes of the frame is no matter of music
      have hmusic : c'.2.music = _ := hleaves.value_eq (v := World.music) fun _ _ => rfl
      have hvoices : c'.1.voices = _ := (congrArg (·.left.1.voices) hturn).trans
        (Tracker.voices_follow f below _)
      dsimp only
      rw [hop, Option.bind_some]
      refine ⟨?_, hmusic.trans htrack⟩
      rw [InTune, hvoices, hmusic]
      exact hperformed

end InTune

/-! ## Sessions -/

namespace Session

section

variable [Interpreter]

section

variable (sources : Sources)

/-- A session that has begun with a scene and been played for some frames, with the music commands
that its events have executed, the oldest first. -/
inductive Scored : List MusicAction → Session → Prop
  | loaded {config : SessionConfig} {path : String} {lines : List Line} {s : Session}
      (hload : load sources config path = (lines, .ok s)) : Scored [] s
  | press {actions : List MusicAction} {s : Session} (c : Control) (hs : Scored actions s) :
      Scored actions (s.press c)
  | walkTo {actions : List MusicAction} {s : Session} (p : Point) (hs : Scored actions s) :
      Scored actions (s.walkTo p)
  | frame {actions actions' : List MusicAction} {s : Session}
      {r : TickStatus × Tracker × World} (hs : Scored actions s)
      (hruns : Tracker.RunsDoing (stage sources) (beginFrame sources s).now Tracker.commanded
        (beginFrame sources s).tracker (beginFrame sources s).world actions' r) :
      Scored (actions ++ actions') (frame sources s)

end

variable {sources : Sources} {actions : List MusicAction} {s : Session}

/-- Whatever is played, its music commands can be written down. -/
theorem Played.exists_scored (h : Played sources s) : ∃ actions, Scored sources actions s := by
  induction h with
  | loaded hload => exact ⟨[], .loaded hload⟩
  | press c _ ih =>
      obtain ⟨actions, hs⟩ := ih
      exact ⟨actions, .press c hs⟩
  | walkTo p _ ih =>
      obtain ⟨actions, hs⟩ := ih
      exact ⟨actions, .walkTo p hs⟩
  | frame _ hreturns _ ih =>
      obtain ⟨actions, hs⟩ := ih
      obtain ⟨actions', hruns⟩ := Tracker.Runs.exists_doing Tracker.commanded hreturns
      exact ⟨_, .frame hs hruns⟩

/-- Both are in tune, and the world plays what a world plays that has obeyed some commands. -/
structure Tuned (sources : Sources) (actions : List MusicAction) (c : Tracker × World) : Prop where
  inTune : InTune c
  music : c.2.music = (actions.foldl (stage sources).obey World.blank).music

namespace Tuned

variable {actions' : List MusicAction} {c c' : Tracker × World}

/-- What does not touch the track that either remembers leaves them tuned. -/
theorem of_eq (h : Tuned sources actions c) (hvoices : c'.1.voices.music = c.1.voices.music)
    (hmusic : c'.2.music = c.2.music) : Tuned sources actions c' where
  inTune := h.inTune.of_eq hvoices hmusic
  music := hmusic.trans h.music

theorem asides (hasides : Asides c c') (h : Tuned sources actions c) : Tuned sources actions c' :=
  hasides.invariant (fun _ _ haside hc => hc.of_eq haside.music_eq.1 haside.music_eq.2) h

theorem turn (now : Nat) (h : Tuned sources actions c) :
    Tuned sources (actions ++ Tracker.commanded c)
      (Tracker.turn (stage sources) now c.1 c.2).left := by
  obtain ⟨hinTune, hmusic⟩ := h.inTune.turn sources.scene now
  refine ⟨hinTune, hmusic.trans ?_⟩
  rw [List.foldl_append, stage, World.music_obeys, World.music_obeys, h.music]
  rfl

/-- A tick that returns adds the commands that it executes. -/
theorem ticked {now : Nat} {r : TickStatus × Tracker × World}
    (hruns : Tracker.RunsDoing (stage sources) now Tracker.commanded c.1 c.2 actions' r)
    (h : Tuned sources actions c) : Tuned sources (actions ++ actions') r.2 := by
  refine hruns.relates_moments (R := fun ds c c' => ∀ actions, Tuned sources actions c →
    Tuned sources (actions ++ ds) c') ?_ (fun c actions hc => hc.turn now) actions h
  intro ds ds' c c' c'' hfirst hrest actions hc
  rw [← List.append_assoc]
  exact hrest _ (hfirst actions hc)

end Tuned

/-- So it is with every session that is played. -/
theorem Scored.tuned (hs : Scored sources actions s) : Tuned sources actions s.moment := by
  induction hs with
  | loaded hload =>
      obtain ⟨scene, hasides⟩ := exists_asides_of_load hload
      obtain ⟨journal, player, hentered⟩ := World.exists_enter_eq scene none .blank
      have hsilent : (World.ofScene scene).music = none := by
        rw [World.ofScene, hentered]
        rfl
      exact Tuned.asides hasides ⟨hsilent.symm, hsilent⟩
  | press c _ ih => exact ih.of_eq rfl rfl
  | walkTo p _ ih => exact ih
  | @frame actions actions' s r _ hruns ih =>
      obtain ⟨status, t, w⟩ := r
      have hticked : Tuned sources (actions ++ actions') (t, w) :=
        (ih.asides (asides_beginFrame sources s)).ticked hruns
      rw [frame_eq hruns.runs]
      refine Tuned.asides (asides_rest sources _) ?_
      unfold closeIdleBox
      split
      · exact hticked.of_eq rfl w.music_flushDialog
      · exact hticked

/-- The interpreter and the world remember the same track, in every session over any scenes and
scripts, whatever its events have commanded (`Scored`), and at every moment of the next tick,
whether it returns or not. The world plays what it would if it had been asked each time: after each
turn what the command of the turn asks for, and altogether the path that was set last, unless it was
stopped. -/
theorem music_never_drifts (hs : Scored sources actions s) :
    s.tracker.voices.music = s.world.music ∧
      s.world.music = (actions.foldl (stage sources).obey World.blank).music ∧
      (∀ before path looped after, actions = before ++ .set path looped :: after →
        (∀ action ∈ after, action = .pause ∨ action = .play) → s.world.music = some path) ∧
      ∀ c, Relation.ReflTransGen (Tracker.Goes (stage sources) (beginFrame sources s).now)
        (beginFrame sources s).moment c →
          c.1.voices.music = c.2.music ∧
            (Tracker.turn (stage sources) (beginFrame sources s).now c.1 c.2).left.2.music =
              ((Tracker.commanded c).foldl (stage sources).obey c.2).music := by
  have htuned : Tuned sources actions s.moment := hs.tuned
  refine ⟨htuned.inTune, htuned.music, ?_, ?_⟩
  · intro before path looped after hactions hafter
    have hlast : ∀ w : World, w.music = some path →
        (after.foldl (stage sources).obey w).music = some path := by
      clear hactions
      induction after with
      | nil => exact fun w hw => hw
      | cons action after ih =>
          intro w hw
          refine ih (fun a ha => hafter a (List.mem_cons_of_mem _ ha)) _ ?_
          -- to pause and to go on do not change the track
          rcases hafter action List.mem_cons_self with rfl | rfl
          · exact hw
          · exact hw
    rw [show s.world.music = _ from htuned.music, hactions, List.foldl_append, List.foldl_cons]
    exact hlast _ rfl
  · intro c hpath
    have haside : ∀ c c', Aside c c' → InTune c → InTune c' := fun _ _ haside hc =>
      hc.of_eq haside.music_eq.1 haside.music_eq.2
    have hc : InTune c := invariant_moment (Q := fun _ _ => True) haside
      (fun now c _ hc => (hc.turn sources.scene now).1) (fun _ _ => trivial) htuned.inTune hpath
    exact ⟨hc, (hc.turn sources.scene _).2⟩

end

/-! ## A song -/

/-- A scene that begins with a song, which it sets twice, and enters itself once, to begin anew. -/
def songSources : Sources := scenerySources
  [.music (.set "song" true), .music (.set "song" false), .flagOnce "begun", .music .pause,
    .sceneLoad "scene.json" none]

/-- The song plays, though the world has been asked for it only the first of four times. -/
theorem music_never_drifts_song :
    ∃ actions s, Scored songSources actions s ∧
      actions = [.set "song" true, .set "song" false, .pause, .set "song" true, .set "song" false] ∧
      s.world.chronicle.log.toList =
        ["music.set song loop=true", "flag.set begun", "music.pause", "scene.load hall door=-"] ∧
      s.tracker.voices.music = s.world.music ∧ s.world.music = some "song" := by
  have hplay : ∃ s r actions, load songSources .standard "scene.json" = ([], .ok s) ∧
      Tracker.RunsDoing (stage songSources) (beginFrame songSources s).now Tracker.commanded
        (beginFrame songSources s).tracker (beginFrame songSources s).world actions r ∧
      actions = [.set "song" true, .set "song" false, .pause, .set "song" true,
        .set "song" false] ∧
      (finishFrame songSources r.1 { beginFrame songSources s with
        tracker := r.2.1, world := r.2.2 }).world.chronicle.log.toList =
          ["music.set song loop=true", "flag.set begun", "music.pause", "scene.load hall door=-"] :=
    ⟨_, _, _, rfl, .more rfl (.more rfl (.more rfl (.more rfl (.more rfl (.more rfl (.more rfl
      (.more rfl (.ended rfl)))))))), rfl, by decide +kernel⟩
  obtain ⟨s, r, actions, hload, hruns, hactions, hlog⟩ := hplay
  rw [← frame_eq hruns.runs] at hlog
  have hscored : Scored songSources actions (frame songSources s) := .frame (.loaded hload) hruns
  obtain ⟨hagree, -, hset, -⟩ := music_never_drifts hscored
  have hsong : (frame songSources s).world.music = some "song" :=
    hset [.set "song" true, .set "song" false, .pause, .set "song" true] "song" false []
      hactions (by simp)
  exact ⟨actions, _, hscored, hactions, hlog, hagree, hsong⟩

end Session

end Cutscene
