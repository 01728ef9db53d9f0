import Cutscene.Proofs.Stage.Mirrors
import Cutscene.Proofs.Tracker.Stints
import Cutscene.Proofs.World.Setting

/-!
# Selections

A selection goes on until the player chooses. Its frame keeps which option is highlighted and the
world shows it. Both are where the player has moved the highlight (`steer`), tick after tick, and
that they agree is the invariant of its stint: so the option that the world logs as chosen is the
one whose event is called.
-/

namespace Cutscene

open Tracker

/-- Where the highlight goes when some controls are pressed: of two moves the one to the second
option comes last. -/
def steer (pressed : Presses) (highlighted : Bool) : Bool :=
  if pressed.selectNext then true else if pressed.selectPrevious then false else highlighted

/-! ## How often the options are hidden -/

section

variable {σ : Type} (stage : Stage σ) (first second : Choice)

/-- How often it has been asked that the options be hidden. -/
def hides (x : σ × List StageCall) : Nat := x.2.count .hideOptions

theorem hides_consume (c : Control) (x : σ × List StageCall) :
    hides (stage.recorded.consume c x).2 = hides x := by
  simp only [hides, Stage.recorded]
  split
  · simp
  · rfl

theorem hides_showOptions (highlighted : Bool) (x : σ × List StageCall) :
    hides (stage.recorded.showOptions first.label second.label highlighted x) = hides x := by
  simp [hides, Stage.recorded]

theorem hides_navigate (c : Control) (choice : Bool) (r : Bool × σ × List StageCall) :
    hides (navigate stage.recorded first second c choice r).2 = hides r.2 := by
  unfold navigate
  dsimp only
  split
  · rw [hides_showOptions, hides_consume]
  · exact hides_consume stage c r.2

theorem hides_callNamed (name : String) (x : σ × List StageCall) :
    hides (callNamed stage.recorded name x).2 = hides x := by
  unfold callNamed
  split <;> rfl

theorem callNamed_ne_suspend (name : String) (s : σ) (p : Progress) :
    (callNamed stage name s).1 ≠ .suspend p := by
  unfold callNamed
  split <;> exact Flow.noConfusion

/-- The options are hidden once if one is chosen, and else not at all. -/
theorem hides_selectionStep (entering : Bool) (progress : Progress) (x : σ × List StageCall) :
    let r := selectionStep stage.recorded first second entering progress x
    (∃ p, r.1 = .suspend p) ∧ hides r.2 = hides x ∨
      (∀ p, r.1 ≠ .suspend p) ∧ hides r.2 = hides x + 1 := by
  unfold selectionStep
  extract_lets highlighted x' r₁ r₂ r
  have hoffered : hides x' = hides x := by
    unfold x'
    split
    · exact hides_showOptions stage first second highlighted x
    · rfl
  have hmoved : hides r₂.2 = hides x := by
    unfold r₂ r₁
    rw [hides_navigate, hides_navigate, hoffered]
  have htaken := hides_consume stage .activate r₂.2
  unfold r
  rcases hconsume : stage.recorded.consume .activate r₂.2 with ⟨chosen, x''⟩
  rw [hconsume, hmoved] at htaken
  cases chosen with
  | true =>
      have hhidden : hides (stage.recorded.hideOptions x'') = hides x'' + 1 := by
        simp [hides, Stage.recorded]
      refine .inr ⟨callNamed_ne_suspend stage.recorded _ _, (hides_callNamed stage _ _).trans ?_⟩
      rw [hhidden]
      exact congrArg (· + 1) htaken
  | false => exact .inl ⟨⟨_, rfl⟩, htaken⟩

end

/-! ## One tick of a selection -/

namespace World

variable {load : String → Reported Scene} {first second : Choice} {choice highlighted : Bool}

/-- The world shows the options of a selection, one of them highlighted. -/
def Offers (first second : Choice) (highlighted : Bool) (w : World) : Prop :=
  w.narrative.options = some (first.label, second.label, if highlighted then 1 else 0)

/-- The log when the options of a selection are shown: it says so, unless there are some. -/
def logOffered (first second : Choice) (w : World) : Array String :=
  if w.narrative.options = none then
    w.chronicle.log.push s!"options {first.label} | {second.label}"
  else w.chronicle.log

/-- What a selection does to the world until an option is chosen. -/
structure Moves (first second : Choice) (highlighted : Bool) (pressed : Presses) (w w' : World) :
    Prop where
  offers : w'.Offers first second highlighted
  input : w'.input = pressed
  log : w'.chronicle.log = w.chronicle.log
  library : w'.library = w.library

theorem Moves.trans {b b' : Bool} {pressed pressed' : Presses} {w w' w'' : World}
    (h : Moves first second b pressed w w') (h' : Moves first second b' pressed' w' w'') :
    Moves first second b' pressed' w w'' where
  offers := h'.offers
  input := h'.input
  log := h'.log.trans h.log
  library := h'.library.trans h.library

/-- Options that are shown are shown anew without an entry in the log. -/
theorem moves_showOptions {w : World} (h : w.Offers first second highlighted) :
    Moves first second choice w.input w
      ((stage load).showOptions first.label second.label choice w) where
  offers := rfl
  input := by
    show (showOptions _ _ _ w).input = _
    rw [showOptions, h]
    rfl
  log := by
    show (showOptions _ _ _ w).chronicle.log = _
    rw [showOptions, h]
    rfl
  library := by
    show (showOptions _ _ _ w).library = _
    rw [showOptions, h]
    rfl

/-- A control that is pressed moves the highlight. -/
theorem moves_navigate (load : String → Reported Scene) (c : Control) (choice : Bool) {w : World}
    (h : w.Offers first second highlighted) :
    let moved := if w.input.has c then choice else highlighted
    ∃ w', navigate (stage load) first second c choice (highlighted, w) = (moved, w') ∧
      Moves first second moved (w.input.take c) w w' := by
  have htaken : Moves first second highlighted (w.input.take c) w (w.consume c).2 :=
    ⟨h, rfl, rfl, rfl⟩
  unfold navigate
  show let moved := _; ∃ w', (if w.input.has c then (choice, _) else _) = (moved, w') ∧ _
  cases w.input.has c with
  | true => exact ⟨_, rfl, htaken.trans (moves_showOptions htaken.offers)⟩
  | false => exact ⟨_, rfl, htaken⟩

/-- The beginning of a selection. -/
theorem begins_showOptions (w : World) :
    let w' := (stage load).showOptions first.label second.label highlighted w
    w'.Offers first second highlighted ∧ w'.input = w.input ∧
      w'.chronicle.log = w.logOffered first second ∧ w'.library = w.library := by
  cases hoptions : w.narrative.options with
  | none =>
      simp [Offers, stage, showOptions, logOffered, hoptions, record]
  | some shown =>
      simp [Offers, stage, showOptions, logOffered, hoptions]

/-- A frame is in a selection with an option highlighted: it enters the selection, or it has kept
the option that the world shows as highlighted. -/
structure Choosing (first second : Choice) (highlighted : Bool) (f : Frame) (w : World) : Prop where
  enters : f.justEntered = true → highlighted = false
  goesOn : f.justEntered = false →
    f.progress = .selection highlighted ∧ w.Offers first second highlighted

variable {f : Frame} {below : List Frame}

/-- One tick of a selection: the highlight is moved, and then the option that is highlighted is
chosen or the selection goes on with it. -/
theorem Choosing.exists_selectionStep_eq {w : World} (h : Choosing first second highlighted f w)
    (load : String → Reported Scene) :
    let moved := steer w.input highlighted
    ∃ w', w'.Offers first second moved ∧ w'.library = w.library ∧
      w'.chronicle.log = (if f.justEntered then w.logOffered first second else w.chronicle.log) ∧
      selectionStep (stage load) first second f.justEntered f.progress w =
        if w.input.activate then
          callNamed (stage load) (if moved then second.event else first.event) w'.hideOptions
        else (.suspend (.selection moved), w') := by
  intro moved
  unfold selectionStep
  extract_lets begun w₀ r₁ r₂
  have hbegun : begun = highlighted := by
    unfold begun
    cases hentered : f.justEntered with
    | true => exact (h.enters hentered).symm
    | false => rw [(h.goesOn hentered).1]
  have hoffered : w₀.Offers first second highlighted ∧ w₀.input = w.input ∧ w₀.chronicle.log =
      (if f.justEntered then w.logOffered first second else w.chronicle.log) ∧
      w₀.library = w.library := by
    unfold w₀
    rw [hbegun]
    cases hentered : f.justEntered with
    | true => exact begins_showOptions w
    | false => exact ⟨(h.goesOn hentered).2, rfl, rfl, rfl⟩
  obtain ⟨hoffers, hinput, hlog, hlibrary⟩ := hoffered
  -- each of the two moves takes its own control and leaves the others pressed
  obtain ⟨w₁, hfirst, hmoves₁⟩ := moves_navigate load .selectPrevious false hoffers
  obtain ⟨w₂, hsecond, hmoves₂⟩ := moves_navigate load .selectNext true hmoves₁.offers
  have hmoved : (if w₁.input.has .selectNext then true
      else if w₀.input.has .selectPrevious then false else highlighted) = moved := by
    unfold moved
    rw [hmoves₁.input, hinput]
    rfl
  have hr₂ : r₂ = (moved, w₂) := by
    unfold r₂ r₁
    rw [hbegun, hfirst, hsecond, hmoved]
  have hpressed : w₂.input.has .activate = w.input.activate := by
    rw [hmoves₂.input, hmoves₁.input, hinput]
    rfl
  have hmoves := hmoves₁.trans hmoves₂
  rw [hmoved] at hmoves
  refine ⟨(w₂.consume .activate).2, hmoves.offers, hmoves.library.trans hlibrary,
    hmoves.log.trans hlog, ?_⟩
  rw [hr₂, ← hpressed]
  rfl

/-- The highlighted option is the one that is logged as chosen. -/
theorem Offers.hideOptions {w : World} (h : w.Offers first second highlighted) :
    w.hideOptions.narrative.options = none ∧ w.hideOptions.library = w.library ∧
      w.hideOptions.chronicle.log = w.chronicle.log.push
        s!"options.chose {(if highlighted then second else first).label}" := by
  rw [Offers] at h
  unfold World.hideOptions
  rw [h]
  cases highlighted with
  | true => exact ⟨rfl, rfl, rfl⟩
  | false => exact ⟨rfl, rfl, rfl⟩

end World

/-! ## The turns of a selection -/

namespace Tracker

variable {load : String → Reported Scene} {first second : Choice} {highlighted : Bool} {f : Frame}
  {below : List Frame}

/-- The stack when an operation has looked for an event to call: the event is put on top. If there
is none, or it is running, the operation is done. -/
def afterCall (f : Frame) (below : List Frame) (voices : Voices) : Option Event → Tracker
  | some e =>
    if isRunning ⟨f :: below, voices⟩ e then ⟨f.advance :: below, voices⟩
    else ⟨.start e :: f.await :: below, voices⟩
  | none => ⟨f.advance :: below, voices⟩

/-- A selection is performed in one step, after a line in the journal. -/
theorem exists_perform_eq {σ : Type} (stage : Stage σ) (f : Frame) (now : Nat)
    (first second : Choice) (voices : Voices) (s : σ) :
    ∃ line, f.perform stage now (.selection first second) voices s = .plain voices
      (selectionStep stage first second f.justEntered f.progress (stage.note line s)) :=
  ⟨_, rfl⟩

/-- A turn of a selection moves the highlight. Then it ends the tick, or it hides the options and
calls the event of the one that is highlighted. -/
theorem exists_turn_of_choosing (load : String → Reported Scene) (now : Nat) {c : Tracker × World}
    (h : World.Choosing first second highlighted f c.2) (hsettle : settle c.1.frames = f :: below)
    (hop : f.operation? = some (.selection first second)) :
    let moved := steer c.2.input highlighted
    let chosen := if moved then second else first
    ∃ w, w.Offers first second moved ∧ w.library = c.2.library ∧
      w.chronicle.log =
        (if f.justEntered then c.2.logOffered first second else c.2.chronicle.log) ∧
      turn (World.stage load) now c.1 c.2 = follow (World.stage load) f below (.plain c.1.voices
        (if c.2.input.activate then callNamed (World.stage load) chosen.event w.hideOptions
        else (.suspend (.selection moved), w))) := by
  intro moved chosen
  obtain ⟨line, hperform⟩ :=
    exists_perform_eq (World.stage load) f now first second c.1.voices c.2
  have hnoted : World.Choosing first second highlighted f ((World.stage load).note line c.2) :=
    ⟨h.enters, h.goesOn⟩
  obtain ⟨w, hoffers, hlibrary, hlog, hstep⟩ := hnoted.exists_selectionStep_eq load
  refine ⟨w, hoffers, hlibrary, hlog, ?_⟩
  rw [turn_eq_follow hsettle hop, hperform, hstep, apply_ite Choice.event]
  rfl

/-- What becomes of the stack when the event of an option is called. -/
theorem exists_follow_callNamed (load : String → Reported Scene) (name : String) (voices : Voices)
    (w : World) :
    ∃ w', w'.narrative = w.narrative ∧ w'.chronicle.log = w.chronicle.log ∧
      follow (World.stage load) f below (.plain voices (callNamed (World.stage load) name w)) =
        .more (afterCall f below voices (w.library.find? name)) w' := by
  unfold callNamed
  show ∃ w', _ ∧ _ ∧ follow (World.stage load) f below (.plain voices
    (match w.library.find? name with | some e => _ | none => _)) = _
  cases w.library.find? name with
  | none =>
      refine ⟨_, ?_, ?_, follow_next rfl⟩
      · rfl
      · rfl
  | some e =>
      dsimp only
      cases hruns : isRunning ⟨f :: below, voices⟩ e with
      | true =>
          rw [afterCall, if_pos hruns]
          refine ⟨_, ?_, ?_, follow_refused rfl hruns⟩
          · rfl
          · rfl
      | false =>
          rw [afterCall, if_neg (by simp [hruns])]
          refine ⟨_, ?_, ?_, follow_call rfl hruns⟩
          · rfl
          · rfl

/-- The options are hidden once in the turn that ends a selection, and in no other. -/
theorem count_hideOptions {σ : Type} (stage : Stage σ) (now : Nat) {c : Tracker × σ}
    (hsettle : settle c.1.frames = f :: below)
    (hop : f.operation? = some (.selection first second)) :
    let hidden := (asked stage now c).count .hideOptions
    (∃ status t s, turn stage now c.1 c.2 = .ended status t s) ∧ hidden = 0 ∨
      (∃ t s, turn stage now c.1 c.2 = .more t s) ∧ hidden = 1 := by
  intro hidden
  obtain ⟨line, hperform⟩ :=
    exists_perform_eq stage.recorded f now first second c.1.voices (c.2, [])
  have hasked : hidden = hides (selectionStep stage.recorded first second f.justEntered f.progress
      (stage.recorded.note line (c.2, []))).2 := by
    unfold hidden
    rw [asked_of_active hsettle hop, hperform]
    rfl
  have hflow : (f.perform stage now (.selection first second) c.1.voices c.2).flow =
      (selectionStep stage.recorded first second f.justEntered f.progress
        (stage.recorded.note line (c.2, []))).1 := by
    rw [← stage.recorded_mirrors.perform now f _ c.1.voices (c.2, []), hperform]
    rfl
  rw [hasked, turn_eq_follow hsettle hop]
  rcases hides_selectionStep stage first second f.justEntered f.progress
    (stage.recorded.note line (c.2, [])) with ⟨⟨p, hsuspends⟩, hcount⟩ | ⟨hgoes, hcount⟩
  · exact .inl ⟨⟨_, _, _, follow_suspend (hflow.trans hsuspends)⟩, hcount⟩
  · refine .inr ⟨?_, hcount⟩
    cases hfollow : follow stage f below
        (f.perform stage now (.selection first second) c.1.voices c.2) with
    | ended status t s =>
        obtain ⟨p, hsuspends, -⟩ := exists_suspend_of_follow hfollow
        exact absurd (hflow.symm.trans hsuspends) (hgoes p)
    | more t s => exact ⟨t, s, rfl⟩

/-! ## A whole selection -/

/-- What happens between the ticks leaves the options that are shown. -/
def LeavesOptions (c c' : Tracker × World) : Prop :=
  c'.2.narrative.options = c.2.narrative.options

/-- Which option is highlighted when the moves of the ticks before `i` have been made. -/
def highlightAt (pressed : Nat → Presses) (i : Nat) : Bool :=
  (List.range i).foldl (fun highlighted j => steer (pressed j) highlighted) false

theorem highlightAt_succ (pressed : Nat → Presses) (i : Nat) :
    highlightAt pressed (i + 1) = steer (pressed i) (highlightAt pressed i) := by
  rw [highlightAt, List.range_succ, List.foldl_append]
  rfl

variable {time : Nat → Nat} {place : Nat → Tracker × World} {n i : Nat}

/-- At each turn of a selection the frame and the world agree on what is highlighted. -/
theorem Stint.exists_choosing
    (h : Stint (World.stage load) LeavesOptions (.selection first second) time place n)
    (hi : i ≤ n) :
    ∃ f below, settle (place i).1.frames = f :: below ∧
      f.operation? = some (.selection first second) ∧ f.justEntered = (i == 0) ∧
      World.Choosing first second (highlightAt (fun j => (place j).2.input) i) f (place i).2 := by
  induction i with
  | zero =>
      obtain ⟨f, below, hsettle, hop, hentered⟩ := h.enters
      exact ⟨f, below, hsettle, hop, hentered, fun _ => rfl,
        fun hgoes => absurd (hentered.symm.trans hgoes) (by simp)⟩
  | succ i ih =>
      obtain ⟨f, below, hsettle, hop, -, hchoosing⟩ := ih (Nat.le_of_succ_le hi)
      obtain ⟨w, hoffers, -, -, hturn⟩ :=
        exists_turn_of_choosing load (time i) hchoosing hsettle hop
      cases hactivate : (place i).2.input.activate with
      | true =>
          -- a choice lets the tick go on, so this turn would be the last
          rw [hactivate, if_pos rfl] at hturn
          obtain ⟨w', -, -, hmore⟩ :=
            exists_follow_callNamed load _ (place i).1.voices w.hideOptions
          exact absurd (hturn.trans hmore) (h.not_more hi _ w')
      | false =>
          rw [hactivate, if_neg Bool.false_ne_true, follow_suspend rfl] at hturn
          obtain ⟨⟨below', hsettle'⟩, hleaves⟩ := h.next hi hturn
          refine ⟨_, below', hsettle', hop, rfl, fun hentered => Bool.noConfusion hentered,
            fun _ => ?_⟩
          rw [highlightAt_succ]
          exact ⟨rfl, hleaves.trans hoffers⟩

/-- A selection goes on until the first tick in which the player activates. Meanwhile the frame and
the world agree on what is highlighted, which is where the player has moved the highlight, and
nothing is logged but that the options are shown. In that tick, and only then, the options are
hidden, the one that is highlighted is logged as chosen, and its event is called: if there is none
of that name, or it is running, the next operation follows. -/
theorem selection_resolves
    (h : Stint (World.stage load) LeavesOptions (.selection first second) time place n) :
    let pressed i := (place i).2.input
    ∀ i ≤ n, ∃ f below w, settle (place i).1.frames = f :: below ∧
      let voices := (place i).1.voices
      let highlighted := highlightAt pressed (i + 1)
      let chosen := if highlighted then second else first
      let hidden := (asked (World.stage load) (time i) (place i)).count .hideOptions
      let log := if i = 0 then (place i).2.logOffered first second else (place i).2.chronicle.log
      ((pressed i).activate = false → hidden = 0 ∧ w.Offers first second highlighted ∧
        w.chronicle.log = log ∧
        turn (World.stage load) (time i) (place i).1 (place i).2 =
          .ended .suspended ⟨f.suspend (.selection highlighted) :: below, voices⟩ w) ∧
      ((pressed i).activate = true → i = n ∧ hidden = 1 ∧ w.narrative.options = none ∧
        w.chronicle.log = log.push s!"options.chose {chosen.label}" ∧
        turn (World.stage load) (time i) (place i).1 (place i).2 =
          .more (afterCall f below voices ((place i).2.library.find? chosen.event)) w) := by
  intro pressed i hi
  obtain ⟨f, below, hsettle, hop, hentered, hchoosing⟩ := h.exists_choosing hi
  obtain ⟨w, hoffers, hlibrary, hlog, hturn⟩ :=
    exists_turn_of_choosing load (time i) hchoosing hsettle hop
  -- that the options are hidden is seen on the recorded stage, where the turn is the same
  have hhidden := count_hideOptions (World.stage load) (time i) hsettle hop
  have hmoved : steer (place i).2.input (highlightAt (fun j => (place j).2.input) i) =
      highlightAt pressed (i + 1) := (highlightAt_succ pressed i).symm
  rw [hmoved] at hoffers hturn
  have hlogged : w.chronicle.log = if i = 0 then (place i).2.logOffered first second
      else (place i).2.chronicle.log := by
    rw [hlog, hentered]
    simp only [beq_iff_eq]
  cases hactivate : (place i).2.input.activate with
  | false =>
      rw [hactivate, if_neg Bool.false_ne_true, follow_suspend rfl] at hturn
      refine ⟨f, below, w, hsettle, fun _ => ⟨?_, hoffers, hlogged, hturn⟩,
        fun hactive => absurd hactive Bool.false_ne_true⟩
      rcases hhidden with ⟨-, hcount⟩ | ⟨⟨t, s, hmore⟩, -⟩
      · exact hcount
      · cases hturn.symm.trans hmore
  | true =>
      obtain ⟨hnone, hlibrary', hchose⟩ := hoffers.hideOptions
      obtain ⟨w', hnarrative, hlog', hfollow⟩ := exists_follow_callNamed load
        (if highlightAt pressed (i + 1) then second else first).event (place i).1.voices
        w.hideOptions
      rw [hactivate, if_pos rfl, hfollow, hlibrary', hlibrary] at hturn
      refine ⟨f, below, w', hsettle,
        fun hidle => absurd hidle.symm Bool.false_ne_true,
        fun _ => ⟨?_, ?_, ?_, ?_, hturn⟩⟩
      · rcases Nat.lt_or_eq_of_le hi with hlt | hlast
        · exact absurd hturn (h.not_more hlt _ w')
        · exact hlast
      · rcases hhidden with ⟨⟨status, t, s, hended⟩, -⟩ | ⟨-, hcount⟩
        · cases hended.symm.trans hturn
        · exact hcount
      · rw [hnarrative, hnone]
      · rw [hlog', hchose, hlogged]

/-- The presses of three ticks: to the second option, to both, and to the first one with the
choice. -/
def wavers (i : Nat) : Presses :=
  [⟨false, true, false⟩, ⟨false, true, true⟩, ⟨true, false, true⟩].getD i .none

/-- A selection with these presses, in a world with an event for its first option. -/
def wavering : Nat → Tracker × World :=
  onward (World.stage World.noScene) id (fun i w => { w with input := wavers (i + 1) })
    (⟨[.start (.make 0 (some "gate") [.selection ⟨"Go", "go"⟩ ⟨"Stay", "stay"⟩])], .silent⟩,
      { World.blank with
        library := Library.empty.insert 1 "go" [.waitForKey]
        input := wavers 0 })

theorem selection_resolves_wavering :
    Stint (World.stage World.noScene) LeavesOptions (.selection ⟨"Go", "go"⟩ ⟨"Stay", "stay"⟩) id
        wavering 2 ∧
      (asked (World.stage World.noScene) 1 (wavering 1)).count .hideOptions = 0 ∧
      (asked (World.stage World.noScene) 2 (wavering 2)).count .hideOptions = 1 ∧
      ∃ f w, w.chronicle.log = #["options Go | Stay", "options.chose Go"] ∧
        turn (World.stage World.noScene) 2 (wavering 2).1 (wavering 2).2 =
          .more ⟨[.start (.make 1 (some "go") [.waitForKey]), f], .silent⟩ w := by
  have hstint : Stint (World.stage World.noScene) LeavesOptions
      (.selection ⟨"Go", "go"⟩ ⟨"Stay", "stay"⟩) id wavering 2 := by
    refine stint_onward (fun _ _ => rfl) rfl rfl rfl fun i hi => ?_
    match i, hi with
    | 0, _ | 1, _ => exact ⟨_, _, rfl⟩
  obtain ⟨_, _, _, _, hwaits, _⟩ := selection_resolves hstint 1 (by decide)
  obtain ⟨f, below, w, hsettle, _, hchooses⟩ := selection_resolves hstint 2 (by decide)
  obtain ⟨-, hhidden, -, hlog, hturn⟩ := hchooses rfl
  have hframes : ∃ g, settle (wavering 2).1.frames = [g] ∧
      isRunning ⟨[g], .silent⟩ (.make 1 (some "go") [.waitForKey]) = false := ⟨_, rfl, rfl⟩
  obtain ⟨g, hg, hfree⟩ := hframes
  obtain ⟨rfl, rfl⟩ := List.cons.inj (hg.symm.trans hsettle)
  have hcalled : afterCall g [] .silent (some (.make 1 (some "go") [.waitForKey])) =
      ⟨[.start (.make 1 (some "go") [.waitForKey]), g.await], .silent⟩ := by
    rw [afterCall, if_neg (by simp [hfree])]
  exact ⟨hstint, (hwaits rfl).1, hhidden, g.await, w, hlog,
    hturn.trans (congrArg (Turn.more · w) hcalled)⟩

end Tracker

end Cutscene
