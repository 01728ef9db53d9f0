import Cutscene.Proofs.Session.Asides
import Cutscene.Proofs.Stage.Signs

/-!
# Sessions that are played

What can become of a session: it begins with a scene, controls are pressed, the player walks, and
frames are played whose ticks return. Only the events of a frame change the signs of the world, and
the idle end of a frame, which closes the box. Everything else that is done in a session leaves the
signs alone and at most puts new frames on the stack (`Apart`). So a property of the stack and the
signs holds of a session if it holds when nothing runs and nothing is shown and if calls and turns
keep it (`PlayedWith.invariant`).
-/

namespace Cutscene

namespace Session

variable [Interpreter]

/-- What is done apart from the turns of a tick leaves the signs as they are and at most puts frames
of events on top that have not begun. -/
structure Apart (s s' : Session) : Prop where
  signs : s'.world.signs = s.world.signs
  frames : ∃ es : List Event, s'.tracker.frames = es.map Frame.start ++ s.tracker.frames

namespace Apart

variable {s s' s'' : Session}

theorem trans (h : Apart s s') (h' : Apart s' s'') : Apart s s'' := by
  obtain ⟨es, hes⟩ := h.frames
  obtain ⟨es', hes'⟩ := h'.frames
  exact ⟨h'.signs.trans h.signs, es' ++ es, by
    rw [hes', hes, List.map_append, List.append_assoc]⟩

/-- What is done aside is done apart from the turns. -/
theorem of_asides (h : Asides s.moment s'.moment) : Apart s s' := by
  have hboth : s'.moment.2.signs = s.world.signs ∧
      ∃ es : List Event, s'.moment.1.frames = es.map Frame.start ++ s.tracker.frames := by
    refine h.invariant (I := fun c => c.2.signs = s.world.signs ∧
      ∃ es : List Event, c.1.frames = es.map Frame.start ++ s.tracker.frames) ?_ ⟨rfl, [], rfl⟩
    rintro c c' haside ⟨hsigns, es, hes⟩
    cases haside with
    | calls he hfree hworld =>
        obtain ⟨_, _, _, _, _, rfl⟩ := hworld
        exact ⟨hsigns, _ :: es, congrArg (Frame.start _ :: ·) hes⟩
    | stirs hworld =>
        obtain ⟨_, _, _, _, _, rfl⟩ := hworld
        exact ⟨hsigns, es, hes⟩
  exact ⟨hboth.1, hboth.2⟩

theorem beginFrame (sources : Sources) (s : Session) : Apart s (s.beginFrame sources) :=
  of_asides (asides_beginFrame sources s)

/-- What follows the events of a frame and the closing of an idle box. -/
theorem rest (sources : Sources) (s : Session) :
    Apart s ((((s.followScene sources).runScripts sources).answerCalls sources).endFrame) :=
  of_asides (asides_rest sources s)

end Apart

/-! ## What can become of a session -/

/-- The tick of the next frame returns. -/
def Returns (sources : Sources) (s : Session) (r : TickStatus × Tracker × World) : Prop :=
  let b := beginFrame sources s
  Tracker.Runs (stage sources) b.now b.tracker b.world r

/-- A session that has begun with a scene and been played for some frames, at every moment of whose
ticks, of the time and the tracker and the world, something held. -/
inductive PlayedWith (sources : Sources) (Q : Nat → Tracker × World → Prop) : Session → Prop
  | loaded {config : SessionConfig} {path : String} {lines : List Line} {s : Session}
      (hload : load sources config path = (lines, .ok s)) : PlayedWith sources Q s
  | press {s : Session} (c : Control) (hs : PlayedWith sources Q s) :
      PlayedWith sources Q (s.press c)
  | walkTo {s : Session} (p : Point) (hs : PlayedWith sources Q s) :
      PlayedWith sources Q (s.walkTo p)
  | frame {s : Session} {r : TickStatus × Tracker × World} (hs : PlayedWith sources Q s)
      (hreturns : Returns sources s r)
      (hmoments : ∀ c, Relation.ReflTransGen
        (Tracker.Goes (stage sources) (beginFrame sources s).now)
        ((beginFrame sources s).tracker, (beginFrame sources s).world) c →
          Q (beginFrame sources s).now c) : PlayedWith sources Q (frame sources s)

/-- A session that has begun with a scene and been played for some frames. -/
def Played (sources : Sources) : Session → Prop := PlayedWith sources fun _ _ => True

section

variable {sources : Sources} {s : Session} {status : TickStatus} {t : Tracker} {w : World}

/-- A frame whose tick returns. -/
theorem frame_eq (h : Returns sources s (status, t, w)) :
    frame sources s =
      finishFrame sources status { beginFrame sources s with tracker := t, world := w } := by
  unfold frame runEvents
  rw [h.tick_eq]

/-- Before anything has happened, nothing runs and nothing is shown. -/
def blank (config : SessionConfig) (scene : Scene) : Session :=
  ⟨.empty, none, World.ofScene scene, #[], config, none, 0, 0⟩

theorem signs_blank (config : SessionConfig) (scene : Scene) :
    (blank config scene).world.signs = .none := by
  obtain ⟨journal, player, hentered⟩ := World.exists_enter_eq scene none .blank
  rw [blank, World.ofScene, hentered]
  rfl

/-- A session begins with the start event of its scene and with what scripts do when they are
loaded. -/
theorem exists_apart_of_load {config : SessionConfig} {path : String} {lines : List Line}
    (h : load sources config path = (lines, .ok s)) : ∃ scene, Apart (blank config scene) s := by
  obtain ⟨scene, hasides⟩ := exists_asides_of_load h
  exact ⟨scene, .of_asides hasides⟩

section

variable {Q : Nat → Tracker × World → Prop} {I : List Frame → Signs → Prop}

/-- What calls keep is kept by everything that is done apart from the turns of a tick. -/
theorem Apart.keeps (hcall : ∀ (es : List Event) fs g, I fs g → I (es.map Frame.start ++ fs) g)
    {s s' : Session} (h : Apart s s') (hI : I s.tracker.frames s.world.signs) :
    I s'.tracker.frames s'.world.signs := by
  obtain ⟨es, hes⟩ := h.frames
  rw [hes, h.signs]
  exact hcall es _ _ hI

/-- What turns keep, too, is kept by a tick that returns. -/
theorem Returns.keeps
    (hcall : ∀ (es : List Event) fs g, I fs g → I (es.map Frame.start ++ fs) g)
    (hturn : ∀ now c, Q now c → I c.1.frames c.2.signs →
      let c' := (Tracker.turn (stage sources) now c.1 c.2).left
      I c'.1.frames c'.2.signs)
    (hreturns : Returns sources s (status, t, w))
    (hmoments : ∀ c, Relation.ReflTransGen (Tracker.Goes (stage sources) (beginFrame sources s).now)
      ((beginFrame sources s).tracker, (beginFrame sources s).world) c →
        Q (beginFrame sources s).now c)
    (hI : I s.tracker.frames s.world.signs) : I t.frames w.signs :=
  hreturns.invariant (I := fun c => I c.1.frames c.2.signs)
    ((Apart.beginFrame sources s).keeps hcall hI)
    fun c hpath hc => hturn _ c (hmoments c hpath) hc

/-- What holds when nothing runs and nothing is shown and is kept by calls and by turns holds of
every session that is played. -/
theorem PlayedWith.invariant (hnone : I [] .none)
    (hcall : ∀ (es : List Event) fs g, I fs g → I (es.map Frame.start ++ fs) g)
    (hturn : ∀ now c, Q now c → I c.1.frames c.2.signs →
      let c' := (Tracker.turn (stage sources) now c.1 c.2).left
      I c'.1.frames c'.2.signs)
    (h : PlayedWith sources Q s) : I s.tracker.frames s.world.signs := by
  induction h with
  | @loaded config path lines s hload =>
      obtain ⟨scene, hapart⟩ := exists_apart_of_load hload
      refine hapart.keeps hcall ?_
      rw [signs_blank]
      exact hnone
  | press c _ ih => exact ih
  | walkTo p _ ih => exact ih
  | @frame s r hs hreturns hmoments ih =>
      obtain ⟨status, t, w⟩ := r
      have hticked : I t.frames w.signs := hreturns.keeps hcall hturn hmoments ih
      rw [frame_eq hreturns]
      refine (Apart.rest sources _).keeps hcall ?_
      unfold closeIdleBox
      split
      · rename_i hclose
        -- the box is closed when nothing is left to run
        have hframes : t.frames = [] := hreturns.frames_eq_nil hclose.1
        show I t.frames .none
        rw [hframes]
        exact hnone
      · exact hticked

end

end

/-! ## Sessions that may have been shut down -/

/-- A session that has begun with a scene and in which controls were pressed, the player walked,
frames were played whose ticks returned, and the session may have been shut down, even more than
once. At every moment of the ticks, of the time and the tracker and the world, something held. -/
inductive ReachedWith (sources : Sources) (Q : Nat → Tracker × World → Prop) : Session → Prop
  | loaded {config : SessionConfig} {path : String} {lines : List Line} {s : Session}
      (hload : load sources config path = (lines, .ok s)) : ReachedWith sources Q s
  | press {s : Session} (c : Control) (hs : ReachedWith sources Q s) :
      ReachedWith sources Q (s.press c)
  | walkTo {s : Session} (p : Point) (hs : ReachedWith sources Q s) :
      ReachedWith sources Q (s.walkTo p)
  | frame {s : Session} {r : TickStatus × Tracker × World} (hs : ReachedWith sources Q s)
      (hreturns : Returns sources s r)
      (hmoments : ∀ c, Relation.ReflTransGen
        (Tracker.Goes (stage sources) (beginFrame sources s).now) (beginFrame sources s).moment c →
          Q (beginFrame sources s).now c) : ReachedWith sources Q (frame sources s)
  | shutdown {s : Session} (hs : ReachedWith sources Q s) : ReachedWith sources Q s.shutdown

/-- A session that has begun with a scene and been played, and may have been shut down. -/
def Reached (sources : Sources) : Session → Prop := ReachedWith sources fun _ _ => True

section

variable {sources : Sources} {Q : Nat → Tracker × World → Prop} {I : Tracker × World → Prop}
  {s : Session}

/-- What asides keep and turns keep is kept by a tick that returns. -/
theorem Returns.keeps_moment (haside : ∀ c c', Aside c c' → I c → I c')
    (hturn : ∀ now c, Q now c → I c → I (Tracker.turn (stage sources) now c.1 c.2).left)
    {r : TickStatus × Tracker × World} (hreturns : Returns sources s r)
    (hmoments : ∀ c, Relation.ReflTransGen
      (Tracker.Goes (stage sources) (beginFrame sources s).now) (beginFrame sources s).moment c →
        Q (beginFrame sources s).now c)
    (hI : I s.moment) : I r.2 :=
  hreturns.invariant ((asides_beginFrame sources s).invariant haside hI)
    fun c hpath hc => hturn _ c (hmoments c hpath) hc

/-- What is kept, too, by the closing of the box when no event is left is kept by a frame. -/
theorem Returns.keeps_frame (haside : ∀ c c', Aside c c' → I c → I c')
    (hturn : ∀ now c, Q now c → I c → I (Tracker.turn (stage sources) now c.1 c.2).left)
    (hclosed : ∀ t w, t.frames = [] → I (t, w) → I (t, w.closeBox))
    {r : TickStatus × Tracker × World} (hreturns : Returns sources s r)
    (hmoments : ∀ c, Relation.ReflTransGen
      (Tracker.Goes (stage sources) (beginFrame sources s).now) (beginFrame sources s).moment c →
        Q (beginFrame sources s).now c)
    (hI : I s.moment) : I (frame sources s).moment := by
  obtain ⟨status, t, w⟩ := r
  have hticked : I (t, w) := hreturns.keeps_moment haside hturn hmoments hI
  rw [frame_eq hreturns]
  refine (asides_rest sources _).invariant haside ?_
  unfold closeIdleBox
  split
  · rename_i hclose
    exact hclosed t w (hreturns.frames_eq_nil hclose.1) hticked
  · exact hticked

/-- What asides keep is kept when a session is shut down, if it outlasts the end of all events and
the closing of the box. -/
theorem keeps_shutdown (haside : ∀ c c', Aside c c' → I c → I c')
    (hended : ∀ c, I c → I (.empty, c.2))
    (hclosed : ∀ t w, t.frames = [] → I (t, w) → I (t, w.closeBox)) (hI : I s.moment) :
    I s.shutdown.moment := by
  have hquiet : I (.empty, s.closeScripts.world) :=
    hended _ ((Scripted.closeScripts s).asides.invariant haside hI)
  unfold Session.shutdown
  extract_lets quiet stopped closed
  have hshut : I closed.moment := by
    unfold closed
    split
    · exact hclosed _ _ rfl hquiet
    · exact hquiet
  have hnoted : ∀ line, Asides closed.moment (closed.note line).moment := fun line =>
    .of_stirs ⟨_, _, _, _, _, rfl⟩
  exact (hnoted _).invariant haside hshut

/-- What asides keep and turns keep holds at every moment of the next tick, whether it returns or
not. -/
theorem invariant_moment (haside : ∀ c c', Aside c c' → I c → I c')
    (hturn : ∀ now c, Q now c → I c → I (Tracker.turn (stage sources) now c.1 c.2).left)
    (hmoments : ∀ c, Relation.ReflTransGen
      (Tracker.Goes (stage sources) (beginFrame sources s).now) (beginFrame sources s).moment c →
        Q (beginFrame sources s).now c)
    (hI : I s.moment) {c : Tracker × World} (hpath : Relation.ReflTransGen
      (Tracker.Goes (stage sources) (beginFrame sources s).now) (beginFrame sources s).moment c) :
    I c := by
  induction hpath with
  | refl => exact (asides_beginFrame sources s).invariant haside hI
  | @tail c c' hpath hgo ih =>
      have hleft := hturn (beginFrame sources s).now c (hmoments c hpath) ih
      rwa [show Tracker.turn (stage sources) _ c.1 c.2 = _ from hgo] at hleft

/-- What holds at the beginning of every scene and is kept by asides, by turns and by the closing of
the box when no event is left, holds of every session that is played. -/
theorem PlayedWith.invariant_moment (hbegun : ∀ scene, I (.empty, World.ofScene scene))
    (haside : ∀ c c', Aside c c' → I c → I c')
    (hturn : ∀ now c, Q now c → I c → I (Tracker.turn (stage sources) now c.1 c.2).left)
    (hclosed : ∀ t w, t.frames = [] → I (t, w) → I (t, w.closeBox))
    (h : PlayedWith sources Q s) : I s.moment := by
  induction h with
  | loaded hload =>
      obtain ⟨scene, hasides⟩ := exists_asides_of_load hload
      exact hasides.invariant haside (hbegun scene)
  | press c _ ih => exact (asides_press c _).invariant haside ih
  | walkTo p _ ih => exact ih
  | frame _ hreturns hmoments ih => exact hreturns.keeps_frame haside hturn hclosed hmoments ih

/-- What holds at the beginning of every scene and is kept by asides, by turns, by the end of all
events and by the closing of the box when no event is left, holds of every session. -/
theorem ReachedWith.invariant (hbegun : ∀ scene, I (.empty, World.ofScene scene))
    (haside : ∀ c c', Aside c c' → I c → I c')
    (hturn : ∀ now c, Q now c → I c → I (Tracker.turn (stage sources) now c.1 c.2).left)
    (hended : ∀ c, I c → I (.empty, c.2))
    (hclosed : ∀ t w, t.frames = [] → I (t, w) → I (t, w.closeBox))
    (h : ReachedWith sources Q s) : I s.moment := by
  induction h with
  | loaded hload =>
      obtain ⟨scene, hasides⟩ := exists_asides_of_load hload
      exact hasides.invariant haside (hbegun scene)
  | press c _ ih => exact (asides_press c _).invariant haside ih
  | walkTo p _ ih => exact ih
  | frame _ hreturns hmoments ih => exact hreturns.keeps_frame haside hturn hclosed hmoments ih
  | shutdown _ ih => exact keeps_shutdown haside hended hclosed ih

end

/-! ## Sessions of one scene -/

/-- A scene that begins with some operations. -/
def scenery (operations : List Operation) : Scene where
  name := "hall"
  path := "scene.json"
  events := [(Event.startName, operations)]
  entities := []
  triggers := []
  flags := []
  script := none
  doors := []
  player := none

/-- The scene in every file. -/
def scenerySources (operations : List Operation) : Sources where
  scene _ := ([], .ok (scenery operations))
  script _ := .error .notFound

end Session

end Cutscene
