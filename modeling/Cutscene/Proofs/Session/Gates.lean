import Cutscene.Proofs.Session.Playing
import Cutscene.Proofs.World.Firing
import Cutscene.Script.Interpreter

/-!
# Gates

The bind flag of a trigger is a gate that lets it fire once. In a frame a trigger may fire where the
player walks to, and then one under the player for a press of activate (`Part`). The one that does
sets its bind flag before its event is called, and a call of an event that is running is refused. So
a gate is spent in vain when the event of the trigger is on the stack already, and only then
(`gate_spent_iff`); an event that does not exist costs no gate.
-/

namespace Cutscene

namespace Session

/-- A part of a frame in which a trigger may fire. -/
inductive Part where
  /-- The player walks. -/
  | walk
  /-- The player presses activate. -/
  | push
deriving DecidableEq

section

variable [Interpreter]

namespace Part

/-- The trigger that fires in a part that begins with a session, if one does. -/
def firing? : Part → Session → Option Firing
  | walk, s => s.pendingWalk.bind fun p =>
      if s.world.movementLocked then none else s.world.firing? .touch p
  | push, s =>
      if s.world.input.has .activate && !s.world.movementLocked then
        s.world.firing? .button s.world.player
      else none

theorem firing?_walk (s : Session) :
    walk.firing? s = s.pendingWalk.bind fun p =>
      if s.world.movementLocked then none else s.world.firing? .touch p := rfl

theorem firing?_push (s : Session) :
    push.firing? s =
      if s.world.input.has .activate && !s.world.movementLocked then
        s.world.firing? .button s.world.player
      else none := rfl

section

variable (sources : Sources)

/-- Plays a part. -/
def play : Part → Session → Session
  | walk => takeWalk sources
  | push => pushButton sources

/-- The session at the beginning of a part of the next frame. -/
def before : Part → Session → Session
  | walk, s => s
  | push, s => takeWalk sources s

end

end Part

/-- What comes of a part of a frame: the trigger that fires, if one does, sets its bind flag, and
its event is put on the stack unless it is running. -/
structure Gated (f : Option Firing) (s s' : Session) : Prop where
  flags : ∀ flag, s'.world.hasFlag flag =
    (f.any (fun f => decide (f.trigger.bindFlag = some flag)) || s.world.hasFlag flag)
  frames : s'.tracker.frames = f.elim s.tracker.frames fun f =>
    if s.tracker.isRunning f.event then s.tracker.frames
    else .start f.event :: s.tracker.frames

section

variable (sources : Sources)

namespace Gated

/-- Nothing fires. -/
theorem quiet {s s' : Session} (hflags : ∀ flag, s'.world.hasFlag flag = s.world.hasFlag flag)
    (htracker : s'.tracker = s.tracker) : Gated none s s' :=
  ⟨hflags, congrArg Tracker.frames htracker⟩

/-- A trigger has fired, and its event is called. -/
theorem called {s s' : Session} {f : Firing} (htracker : s'.tracker = s.tracker)
    (hflags : ∀ flag, s'.world.hasFlag flag =
      (decide (f.trigger.bindFlag = some flag) || s.world.hasFlag flag)) :
    Gated (some f) s (s'.call sources f.event) := by
  obtain ⟨journal, heq⟩ := exists_call_eq sources f.event s'
  rw [heq, htracker]
  exact ⟨fun flag => (World.hasFlag_withJournal flag journal _).trans (hflags flag), rfl⟩

/-- The player walks: a trigger that is stepped on may fire. -/
theorem walk (p : Point) {s : Session} (hfree : s.world.movementLocked = false) :
    Gated (s.world.firing? .touch p) s (s.walk sources p) := by
  unfold Session.walk
  rw [hfree, if_neg Bool.false_ne_true]
  have hplace : World.firing? .touch p { s.world with player := p } = s.world.firing? .touch p :=
    rfl
  obtain ⟨journal, ⟨hnone, heq⟩ | ⟨f, hf, heq⟩⟩ :=
    World.fireTrigger_cases .touch p { s.world with player := p }
  · rw [heq, ← hplace, hnone]
    exact .quiet (fun _ => rfl) rfl
  · rw [heq, ← hplace, hf]
    exact .called sources rfl fun flag => World.hasFlag_spend flag f _

theorem takeWalk (s : Session) : Gated (Part.walk.firing? s) s (s.takeWalk sources) := by
  rw [Part.firing?_walk, Session.takeWalk]
  cases s.pendingWalk with
  | none => exact .quiet (fun _ => rfl) rfl
  | some p =>
      rw [Option.bind_some]
      cases hlocked : s.world.movementLocked with
      | true =>
          dsimp only
          rw [Session.walk, if_pos hlocked]
          exact .quiet (fun _ => rfl) rfl
      | false =>
          have hwalked := walk sources p (s := { s with pendingWalk := none }) hlocked
          exact ⟨hwalked.flags, hwalked.frames⟩

theorem pushButton (s : Session) : Gated (Part.push.firing? s) s (s.pushButton sources) := by
  rw [Part.firing?_push, Session.pushButton]
  cases s.world.input.has .activate && !s.world.movementLocked with
  | false => exact .quiet (fun _ => rfl) rfl
  | true =>
      rw [if_pos rfl, if_pos rfl]
      obtain ⟨journal, ⟨hnone, heq⟩ | ⟨f, hf, heq⟩⟩ :=
        World.fireTrigger_cases .button s.world.player s.world
      · rw [heq, hnone]
        exact .quiet (fun _ => rfl) rfl
      · rw [heq, hf]
        exact .called sources rfl fun flag => World.hasFlag_spend flag f _

theorem play (part : Part) (s : Session) : Gated (part.firing? s) s (part.play sources s) := by
  cases part with
  | walk => exact takeWalk sources s
  | push => exact pushButton sources s

end Gated

/-- A trigger that fires in a part fires somewhere in the world. -/
theorem Part.exists_firing {part : Part} {s : Session} {f : Firing}
    (h : part.firing? s = some f) : ∃ kind p, s.world.firing? kind p = some f := by
  cases part with
  | walk =>
      obtain ⟨p, -, hp⟩ := Option.bind_eq_some_iff.mp h
      split at hp
      · cases hp
      · exact ⟨.touch, p, hp⟩
  | push =>
      rw [firing?_push] at h
      split at h
      · exact ⟨.button, _, h⟩
      · cases h

/-- The event of a trigger that fires in a part exists. -/
theorem Part.eventOf?_of_firing {part : Part} {s : Session} {f : Firing}
    (h : part.firing? s = some f) : s.world.eventOf? f.trigger = some f.event := by
  obtain ⟨kind, p, hfires⟩ := exists_firing h
  exact World.eventOf?_of_firing hfires

/-- A frame sets a flag for the player exactly if a trigger that is bound to the flag fires, where
the player walks to or for the press of activate. The event of a trigger that fires exists; it is
put on the stack exactly if it is not running at that moment, and if it is running the stack stays
as it is and the flag is set in vain. -/
theorem gate_spent_iff (s : Session) {flag : String} (hunset : s.world.hasFlag flag = false) :
    ((beginFrame sources s).world.hasFlag flag = true ↔
      ∃ (part : Part) (f : Firing),
        part.firing? (part.before sources s) = some f ∧ f.trigger.bindFlag = some flag) ∧
    ∀ (part : Part) (f : Firing), part.firing? (part.before sources s) = some f →
      let before := part.before sources s
      let after := part.play sources before
      before.world.eventOf? f.trigger = some f.event ∧
        (after.tracker.frames = .start f.event :: before.tracker.frames ↔
          before.tracker.isRunning f.event = false) ∧
        (after.tracker.frames = before.tracker.frames ↔
          before.tracker.isRunning f.event = true) := by
  constructor
  · have hbegun : (beginFrame sources s).world.hasFlag flag =
        ((Part.push.firing? (takeWalk sources s)).any
            (fun f => decide (f.trigger.bindFlag = some flag)) ||
          (Part.walk.firing? s).any (fun f => decide (f.trigger.bindFlag = some flag))) := by
      rw [beginFrame, (Gated.pushButton sources _).flags, (Gated.takeWalk sources s).flags, hunset,
        Bool.or_false]
    simp only [hbegun, Bool.or_eq_true, Option.any_eq_true, decide_eq_true_eq]
    constructor
    · rintro (⟨f, hf, hbound⟩ | ⟨f, hf, hbound⟩)
      · exact ⟨.push, f, hf, hbound⟩
      · exact ⟨.walk, f, hf, hbound⟩
    · rintro ⟨part, f, hf, hbound⟩
      cases part with
      | walk => exact .inr ⟨f, hf, hbound⟩
      | push => exact .inl ⟨f, hf, hbound⟩
  · intro part f hf before after
    have hframes := (Gated.play sources part before).frames
    rw [hf, Option.elim_some] at hframes
    refine ⟨Part.eventOf?_of_firing hf, ?_⟩
    rw [show after.tracker.frames = _ from hframes]
    cases before.tracker.isRunning f.event with
    | true => simp
    | false => simp

end

end

/-! ## A bell -/

/-- A button in the corner that can be pushed once. -/
def rope (action : TriggerAction (List Operation)) : Trigger (List Operation) :=
  ⟨.button, .ofTiles (.zero false) (.zero false) (.ofNat 1) (.ofNat 1), none, some "rung", action⟩

/-- The scene in every file has one button and begins with some operations. -/
def ropeSources (action : TriggerAction (List Operation)) (operations : List Operation) :
    Sources where
  scene _ := ([], .ok { scenery operations with triggers := [rope action] })
  script _ := .error .notFound

/-- A button with an event of its own is pushed: its flag is set and the event is on the stack. -/
theorem gate_spent_iff_ringing :
    let sources := ropeSources (.inlined []) []
    ∃ lines s f, load sources .standard "scene.json" = (lines, .ok s) ∧
      let s := s.press .activate
      s.world.hasFlag "rung" = false ∧ Part.push.firing? (Part.push.before sources s) = some f ∧
        (beginFrame sources s).world.hasFlag "rung" = true ∧
        (beginFrame sources s).tracker.frames = .start f.event :: s.tracker.frames := by
  intro sources
  have hplay : ∃ lines s, load sources .standard "scene.json" = (lines, .ok s) ∧
      let s := s.press .activate
      s.world.hasFlag "rung" = false ∧ (Part.push.before sources s).tracker = s.tracker ∧
        (Part.push.firing? (Part.push.before sources s)).any (fun f =>
          decide (f.trigger.bindFlag = some "rung") && !s.tracker.isRunning f.event) = true := by
    refine ⟨_, _, rfl, rfl, rfl, ?_⟩
    decide +kernel
  obtain ⟨lines, s, hload, hunset, htracker, hfiring⟩ := hplay
  obtain ⟨f, hf, hringing⟩ := (Option.any_eq_true _ _).mp hfiring
  rw [Bool.and_eq_true, decide_eq_true_eq, Bool.not_eq_true'] at hringing
  obtain ⟨hbound, hrunning⟩ := hringing
  obtain ⟨hset, hfires⟩ := gate_spent_iff sources (s.press .activate) hunset
  obtain ⟨-, hstarted, -⟩ := hfires .push f hf
  rw [htracker] at hstarted
  exact ⟨lines, s, f, hload, hunset, hf, hset.mpr ⟨.push, f, hf, hbound⟩, hstarted.mpr hrunning⟩

/-- The start event of a scene waits, and a button is pushed that would call it: the call is
refused, and the flag that lets the button be pushed once is set. -/
theorem gate_spent_in_vain :
    let sources := ropeSources (.named Event.startName) [.wait 1000]
    ∃ lines s r f, load sources .standard "scene.json" = (lines, .ok s) ∧
      let s := s.press .activate
      Returns sources s r ∧ s.world.hasFlag "rung" = false ∧
        Part.push.firing? (Part.push.before sources s) = some f ∧
        f.trigger.bindFlag = some "rung" ∧
        (beginFrame sources s).tracker.frames = s.tracker.frames ∧
        (frame sources s).world.hasFlag "rung" = true := by
  intro sources
  have hplay : ∃ lines s, load sources .standard "scene.json" = (lines, .ok s) ∧
      let s := s.press .activate
      let b := beginFrame sources s
      s.world.hasFlag "rung" = false ∧ (Part.push.before sources s).tracker = s.tracker ∧
        (Part.push.firing? (Part.push.before sources s)).any (fun f =>
          decide (f.trigger.bindFlag = some "rung") && s.tracker.isRunning f.event) = true ∧
        (match Tracker.turn (stage sources) b.now b.tracker b.world with
          | .ended .suspended t w => (finishFrame sources .suspended
              { b with tracker := t, world := w }).world.hasFlag "rung"
          | _ => false) = true := by
    refine ⟨_, _, rfl, rfl, rfl, ?_, ?_⟩
    · decide +kernel
    · decide +kernel
  obtain ⟨lines, s, hload, hunset, htracker, hfiring, hsuspends⟩ := hplay
  obtain ⟨f, hf, hringing⟩ := (Option.any_eq_true _ _).mp hfiring
  rw [Bool.and_eq_true, decide_eq_true_eq] at hringing
  obtain ⟨hbound, hrunning⟩ := hringing
  have hframes := (Gated.play sources .push (Part.push.before sources (s.press .activate))).frames
  rw [hf, htracker, Option.elim_some, if_pos hrunning] at hframes
  split at hsuspends
  · rename_i t w hturn
    have hreturns : Returns sources (s.press .activate) (.suspended, t, w) := .ended hturn
    rw [← frame_eq hreturns] at hsuspends
    exact ⟨lines, s, _, f, hload, hreturns, hunset, hf, hbound, hframes, hsuspends⟩
  · exact absurd hsuspends Bool.false_ne_true

end Session

end Cutscene
