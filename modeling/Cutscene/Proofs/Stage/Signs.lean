import Cutscene.Proofs.Stage.Hosts
import Cutscene.Proofs.Tracker.Waiting

/-!
# Signs

Besides texts, a world shows a dialog box, a mark that asks for a key, two options and an
expression, and it can keep the player from walking. Most operations have nothing to do with these
signs. What each of the others does to them is said once, in `Signals`, and `signals_execute` says
that nothing else happens.
-/

namespace Cutscene

/-- What a world shows besides texts, and whether the player is kept from walking. -/
structure Signs where
  isOpen : Bool
  /-- Whether the mark that asks for a key is visible. -/
  cursor : Bool
  options : Option (String × String × Nat)
  expression : Option String
  locked : Bool

/-- Nothing is shown and the player can walk. -/
def Signs.none : Signs := ⟨false, false, .none, .none, false⟩

/-- The signs of a world. -/
def World.signs (w : World) : Signs :=
  ⟨w.narrative.isOpen, w.narrative.cursor, w.narrative.options, w.narrative.expression,
    w.movementLocked⟩

namespace Operation

/-- Whether an operation is a fade. -/
def isFade : Operation → Bool
  | fadeIn _ => true
  | fadeOut _ => true
  | _ => false

/-- Whether an operation offers a choice. -/
def isSelection : Operation → Bool
  | selection .. => true
  | _ => false

/-- Whether an operation waits for the key. -/
def isKeyWait : Operation → Bool
  | waitForKey => true
  | _ => false

/-- Whether an operation has nothing to do with the signs. -/
def isQuiet : Operation → Bool
  | say _ => false
  | waitForKey => false
  | hideBox => false
  | selection .. => false
  | entity _ => false
  | fadeIn _ => false
  | fadeOut _ => false
  | _ => true

end Operation

/-- What an execution does to the signs of a world. -/
inductive Signals (entering : Bool) : Operation → Flow → Signs → Signs → Prop
  | quiet {op : Operation} {flow : Flow} {g : Signs} (hop : op.isQuiet = true) :
      Signals entering op flow g g
  /-- A text begins: it opens the box, if that is closed, and the box locks the player. -/
  | begins {say : Say} {flow : Flow} {g : Signs} {expression : Option String}
      (hentering : entering = true) :
      Signals entering (.say say) flow g
        ⟨true, g.cursor, g.options, expression, g.locked || !g.isOpen⟩
  /-- A text goes on. -/
  | goesOn {say : Say} {flow : Flow} {g : Signs} (hentering : entering = false) :
      Signals entering (.say say) flow g g
  | awaits {p : Progress} {g : Signs} {cursor : Bool} :
      Signals entering .waitForKey (.suspend p) g { g with cursor }
  | pressed {g : Signs} : Signals entering .waitForKey .next g { g with cursor := false }
  | offers {first second : Choice} {p : Progress} {g : Signs}
      {options : Option (String × String × Nat)} :
      Signals entering (.selection first second) (.suspend p) g { g with options }
  | chosen {first second : Choice} {flow : Flow} {g : Signs} :
      Signals entering (.selection first second) flow g { g with options := .none }
  | cues {cue : Cue} {g : Signs} {expression : Option String}
      (hexpression : expression = .none ∨ expression = g.expression) :
      Signals entering (.entity cue) .next g { g with expression }
  | closes {g : Signs} : Signals entering .hideBox .next g .none
  /-- A fade that is not over locks the player, and does so when it begins. -/
  | fades {op : Operation} {p : Progress} {g : Signs} {locked : Bool} (hop : op.isFade = true)
      (hlocked : locked = true ∨ entering = false ∧ locked = g.locked) :
      Signals entering op (.suspend p) g { g with locked }
  | faded {op : Operation} {g : Signs} (hop : op.isFade = true) :
      Signals entering op .next g { g with locked := false }

namespace Signals

variable {entering : Bool} {op : Operation} {flow : Flow} {g g' : Signs}

/-- The mark is left visible by an operation that waits for the key, or it was so before. -/
theorem cursor (h : Signals entering op flow g g') (hcursor : g'.cursor = true) :
    (op.isKeyWait = true ∧ ∃ p, flow = .suspend p) ∨
      (op.isKeyWait = false ∧ g.cursor = true) := by
  cases h with
  | awaits => exact .inl ⟨rfl, _, rfl⟩
  | pressed => exact absurd hcursor Bool.false_ne_true
  | closes => exact absurd hcursor Bool.false_ne_true
  | quiet hop | fades hop _ | faded hop =>
      refine .inr ⟨?_, hcursor⟩
      cases op <;> simp_all [Operation.isQuiet, Operation.isFade, Operation.isKeyWait]
  | _ => exact .inr ⟨rfl, hcursor⟩

/-- Options are left shown by an operation that offers them, or they were so before. -/
theorem options (h : Signals entering op flow g g') (hoptions : g'.options ≠ none) :
    (op.isSelection = true ∧ ∃ p, flow = .suspend p) ∨
      (op.isSelection = false ∧ g.options ≠ none) := by
  cases h with
  | offers => exact .inl ⟨rfl, _, rfl⟩
  | chosen => exact absurd rfl hoptions
  | closes => exact absurd rfl hoptions
  | quiet hop | fades hop _ | faded hop =>
      refine .inr ⟨?_, hoptions⟩
      cases op <;> simp_all [Operation.isQuiet, Operation.isFade, Operation.isSelection]
  | _ => exact .inr ⟨rfl, hoptions⟩

/-- With the box closed, the player is left locked by a fade, or was so before. -/
theorem locked (h : Signals entering op flow g g') (hlocked : g'.locked = true)
    (hclosed : g'.isOpen = false) :
    (op.isFade = true ∧ ∃ p, flow = .suspend p) ∨
      (op.isFade = false ∧ g.locked = true ∧ g.isOpen = false) := by
  cases h with
  | fades hop _ => exact .inl ⟨hop, _, rfl⟩
  | faded _ => exact absurd hlocked Bool.false_ne_true
  | begins _ => exact absurd hclosed.symm Bool.false_ne_true
  | closes => exact absurd hlocked Bool.false_ne_true
  | quiet hop =>
      refine .inr ⟨?_, hlocked, hclosed⟩
      cases op <;> simp_all [Operation.isQuiet, Operation.isFade]
  | _ => exact .inr ⟨rfl, hlocked, hclosed⟩

/-- An expression is shown in an open box only. -/
theorem expression (h : Signals entering op flow g g')
    (hbefore : g.expression ≠ none → g.isOpen = true) (hexpression : g'.expression ≠ none) :
    g'.isOpen = true := by
  cases h with
  | begins _ => rfl
  | cues hcue =>
      rcases hcue with hcue | hcue
      · exact absurd hcue hexpression
      · exact hbefore (hcue ▸ hexpression)
  | closes => exact absurd rfl hexpression
  | _ => exact hbefore hexpression

end Signals

/-! ## Requests that change no sign -/

namespace World

theorem signs_flushDialog (w : World) : w.flushDialog.signs = w.signs := by
  unfold flushDialog
  split <;> rfl

theorem signs_setText (text : String) (w : World) : (w.setText text).signs = w.signs :=
  w.signs_flushDialog

theorem signs_entityCue (name : String) (cue : Cue) (w : World) :
    (w.entityCue name cue).signs = w.signs := by
  unfold entityCue
  split
  · rfl
  · dsimp only
    split <;> rfl

theorem signs_consume (c : Control) (w : World) : (w.consume c).2.signs = w.signs := rfl

/-- The signs outlast the scene. -/
theorem signs_of_lasting {w w' : World} (h : w'.lasting = w.lasting) : w'.signs = w.signs := by
  have hnarrative : w'.narrative = w.narrative := congrArg Lasting.narrative h
  have hlocked : w'.movementLocked = w.movementLocked := congrArg Lasting.movementLocked h
  rw [signs, hnarrative, hlocked]
  rfl

end World

/-! ## Options -/

namespace World

theorem signs_showOptions (first second : String) (highlighted : Nat) (w : World) :
    (w.showOptions first second highlighted).signs =
      { w.signs with options := some (first, second, highlighted) } := by
  unfold showOptions
  split <;> rfl

theorem signs_hideOptions (w : World) : w.hideOptions.signs = { w.signs with options := none } := by
  unfold hideOptions
  split
  · rename_i hnone
    rw [signs, hnone]
  · rfl

end World

/-! ## What each operation does -/

/-- A stage on which nothing is shown but texts, and nobody is locked. -/
def Stage.silenced {σ : Type} (stage : Stage σ) : Stage σ :=
  { stage with
    openBox := id
    closeBox := id
    lockMovement := fun _ s => s
    showCursor := fun _ s => s
    showOptions := fun _ _ _ s => s
    hideOptions := id
    showExpression := fun _ s => s }

/-- On a world that is silenced nothing changes the signs. -/
theorem World.silenced_keeps (load : String → Reported Scene) (g : Signs) :
    (stage load).silenced.Keeps (·.signs = g) where
  note _ _ h := h
  setFlag _ _ h := h
  unsetFlag _ _ h := h
  consume _ _ h := h
  openBox _ h := h
  closeBox _ h := h
  setText text w h := (w.signs_setText text).trans h
  appendText _ _ h := h
  setOverlay _ _ h := h
  lockMovement _ _ h := h
  showCursor _ _ h := h
  showOptions _ _ _ _ h := h
  hideOptions _ h := h
  showExpression _ _ h := h
  dialogClick _ h := h
  playMusic _ _ _ h := h
  stopMusic _ h := h
  pauseMusic _ h := h
  resumeMusic _ h := h
  entityCue name cue w h := (w.signs_entityCue name cue).trans h
  setTile _ _ _ _ _ h := h

section

variable {load : String → Reported Scene}

/-- A quiet operation does on a silenced stage what it does anyway. -/
theorem execute_silenced {σ : Type} (stage : Stage σ) (event : Event) (position : Nat)
    {op : Operation} (hop : op.isQuiet = true) (now : Nat) (entering : Bool) (progress : Progress)
    (voices : Voices) (s : σ) :
    execute stage.silenced event position op now entering progress voices s =
      execute stage event position op now entering progress voices s := by
  cases op with
  | say | waitForKey | hideBox | selection | entity | fadeIn | fadeOut =>
      exact absurd hop Bool.false_ne_true
  | _ => rfl

theorem signs_execute_of_isQuiet (event : Event) (position : Nat) {op : Operation}
    (hop : op.isQuiet = true) (now : Nat) (entering : Bool) (progress : Progress) (voices : Voices)
    (w : World) :
    (execute (World.stage load) event position op now entering progress voices w).state.signs =
      w.signs :=
  World.value_execute (v := World.signs) (World.silenced_keeps load)
    (fun _ _ => World.signs_of_lasting)
    (execute_silenced _ event position hop now entering progress voices w)

/-- A text that begins opens the box. -/
theorem exists_signs_beginSay (load : String → Reported Scene) (say : Say) (voices : Voices)
    (w : World) :
    ∃ expression, (beginSay (World.stage load) say voices w).signs =
      ⟨true, w.signs.cursor, w.signs.options, expression, w.signs.locked || !w.signs.isOpen⟩ := by
  unfold beginSay
  extract_lets faced spoken opened
  have hfaced : ∃ expression, faced.signs = { w.signs with expression } := by
    unfold faced
    split
    · exact ⟨say.expression, rfl⟩
    · exact ⟨w.signs.expression, rfl⟩
  have hspoken : ∃ expression, spoken.signs = { w.signs with expression } := by
    unfold spoken
    cases voices.speaker with
    | none => exact ⟨w.signs.expression, rfl⟩
    | some speaker =>
        obtain ⟨expression, hexpression⟩ := hfaced
        exact ⟨expression, (World.signs_entityCue speaker _ faced).trans hexpression⟩
  have hopened : opened.signs =
      { spoken.signs with
        isOpen := true
        locked := spoken.signs.locked || !spoken.signs.isOpen } := by
    unfold opened
    split
    · rename_i hopen
      simp [World.signs, show spoken.narrative.isOpen = true from hopen]
    · rename_i hopen
      have hclosed : spoken.narrative.isOpen = false := Bool.not_eq_true _ ▸ hopen
      simp only [World.signs, hclosed, Bool.not_false, Bool.or_true]
      rfl
  have hpage : (if say.append then opened else (World.stage load).setText "" opened).signs =
      opened.signs := by
    split
    · rfl
    · exact World.signs_setText "" opened
  obtain ⟨expression, hexpression⟩ := hspoken
  exact ⟨expression, by rw [hpage, hopened, hexpression]⟩

/-- A text that has begun goes on as from no progress. -/
theorem sayStep_entering {σ : Type} (stage : Stage σ) (say : Say) (voices : Voices) (now : Nat)
    (progress : Progress) (s : σ) :
    sayStep stage say voices now true progress s =
      sayStep stage say voices now false .fresh (beginSay stage say voices s) :=
  rfl

/-- A text that goes on does on a silenced stage what it does anyway. -/
theorem sayStep_silenced {σ : Type} (stage : Stage σ) (say : Say) (voices : Voices) (now : Nat)
    (progress : Progress) (s : σ) :
    sayStep stage.silenced say voices now false progress s =
      sayStep stage say voices now false progress s :=
  rfl

/-- A text opens the box when it begins and goes on without a sign. -/
theorem signals_sayStep (say : Say) (voices : Voices) (now : Nat) (entering : Bool)
    (progress : Progress) (w : World) :
    Signals entering (.say say)
      (sayStep (World.stage load) say voices now entering progress w).1 w.signs
      (sayStep (World.stage load) say voices now entering progress w).2.signs := by
  have hafter : ∀ progress (w : World),
      (sayStep (World.stage load) say voices now false progress w).2.signs = w.signs := by
    intro progress w
    rw [← sayStep_silenced]
    exact (World.silenced_keeps load w.signs).sayStep say voices now false progress rfl
  cases entering with
  | false =>
      rw [hafter]
      exact .goesOn rfl
  | true =>
      obtain ⟨expression, hbegun⟩ := exists_signs_beginSay load say voices w
      rw [sayStep_entering, hafter, hbegun]
      exact .begins rfl

/-- The mark is hidden when the key is pressed. -/
theorem signals_keyStep (entering : Bool) (w : World) :
    Signals entering .waitForKey (keyStep (World.stage load) entering w).1 w.signs
      (keyStep (World.stage load) entering w).2.signs := by
  unfold keyStep
  extract_lets w'
  have hasked : ∃ cursor, w'.signs = { w.signs with cursor } := by
    unfold w'
    split
    · exact ⟨true, rfl⟩
    · exact ⟨w.signs.cursor, rfl⟩
  obtain ⟨cursor, hcursor⟩ := hasked
  have htaken := World.signs_consume .activate w'
  rcases hconsume : (World.stage load).consume .activate w' with ⟨pressed, w''⟩
  rw [show w'.consume .activate = (pressed, w'') from hconsume, hcursor] at htaken
  cases pressed with
  | true =>
      have hhidden : ((World.stage load).showCursor false w'').signs =
          { w.signs with cursor := false } :=
        congrArg (fun g : Signs => { g with cursor := false }) htaken
      show Signals entering .waitForKey .next w.signs
        ((World.stage load).showCursor false w'').signs
      rw [hhidden]
      exact .pressed
  | false =>
      show Signals entering .waitForKey (.suspend .fresh) w.signs w''.signs
      rw [htaken]
      exact .awaits

theorem signs_callNamed (name : String) (w : World) :
    (callNamed (World.stage load) name w).2.signs = w.signs := by
  unfold callNamed
  split <;> rfl

theorem exists_signs_navigate (load : String → Reported Scene) (first second : Choice) (c : Control)
    (choice : Bool) (r : Bool × World) :
    ∃ options, (navigate (World.stage load) first second c choice r).2.signs =
      { r.2.signs with options } := by
  unfold navigate
  have htaken := World.signs_consume c r.2
  rcases hconsume : (World.stage load).consume c r.2 with ⟨pressed, w⟩
  rw [show r.2.consume c = (pressed, w) from hconsume] at htaken
  rw [← htaken]
  cases pressed with
  | true => exact ⟨_, World.signs_showOptions first.label second.label _ w⟩
  | false => exact ⟨w.signs.options, rfl⟩

/-- The options are hidden when one is chosen. -/
theorem signals_selectionStep (first second : Choice) (entering : Bool) (progress : Progress)
    (w : World) :
    Signals entering (.selection first second)
      (selectionStep (World.stage load) first second entering progress w).1 w.signs
      (selectionStep (World.stage load) first second entering progress w).2.signs := by
  unfold selectionStep
  extract_lets highlighted w' r₁ r₂
  have hoffered : ∃ options, w'.signs = { w.signs with options } := by
    unfold w'
    split
    · exact ⟨_, World.signs_showOptions first.label second.label _ w⟩
    · exact ⟨w.signs.options, rfl⟩
  obtain ⟨options, hoffered⟩ := hoffered
  obtain ⟨options₁, hfirst⟩ := exists_signs_navigate load first second .selectPrevious
    false (highlighted, w')
  obtain ⟨options₂, hsecond⟩ := exists_signs_navigate load first second .selectNext true r₁
  rw [show (navigate (World.stage load) first second .selectPrevious false (highlighted, w')) = r₁
    from rfl, hoffered] at hfirst
  rw [hfirst] at hsecond
  have htaken := World.signs_consume .activate r₂.2
  rcases hconsume : (World.stage load).consume .activate r₂.2 with ⟨chosen, w''⟩
  rw [show r₂.2.consume .activate = (chosen, w'') from hconsume] at htaken
  have hsigns : w''.signs = { w.signs with options := options₂ } := htaken.trans hsecond
  cases chosen with
  | true =>
      -- the event of the option is called after the options are hidden
      have hhidden : ((World.stage load).hideOptions w'').signs =
          { w.signs with options := none } := by
        rw [show ((World.stage load).hideOptions w'') = w''.hideOptions from rfl,
          World.signs_hideOptions, hsigns]
      show Signals entering _ (callNamed (World.stage load) _ _).1 w.signs
        (callNamed (World.stage load) _ ((World.stage load).hideOptions w'')).2.signs
      rw [signs_callNamed, hhidden]
      exact .chosen
  | false =>
      show Signals entering _ (.suspend (.selection r₂.1)) w.signs w''.signs
      rw [hsigns]
      exact .offers

/-- A cue at most takes the expression away. -/
theorem signals_entityStep (cue : Cue) (voices : Voices) (entering : Bool) (w : World) :
    Signals entering (.entity cue) .next w.signs
      (entityStep (World.stage load) cue voices w).2.signs := by
  have hkept : ∀ w' : World, w'.signs = w.signs →
      Signals entering (.entity cue) .next w.signs w'.signs :=
    fun w' hw' => by
      rw [hw']
      exact .cues (.inr rfl)
  unfold entityStep
  split
  · exact hkept w rfl
  · split
    · exact hkept w rfl
    · split
      · split
        · exact .cues (.inl rfl)
        · exact hkept w rfl
      · exact hkept _ rfl
  · exact hkept _ rfl
  · exact hkept _ (World.signs_entityCue _ _ w)
  · exact hkept _ (World.signs_entityCue _ _ w)

/-- A fade locks the player until it is over. -/
theorem signals_fadeStep {op : Operation} (hop : op.isFade = true) (out : Bool)
    (duration now : Nat) (entering : Bool) (progress : Progress) (w : World) :
    Signals entering op (fadeStep (World.stage load) out duration now entering progress w).1 w.signs
      (fadeStep (World.stage load) out duration now entering progress w).2.signs := by
  unfold fadeStep
  split
  rename_i started w' hbegun
  -- the fade has locked the player, unless it was under way before
  have hlocked : ∃ locked, w'.signs = { w.signs with locked } ∧
      (locked = true ∨ entering = false ∧ locked = w.signs.locked) := by
    split at hbegun
    · obtain ⟨-, rfl⟩ := Prod.mk.inj hbegun
      exact ⟨w.signs.locked, rfl, .inr ⟨rfl, rfl⟩⟩
    · obtain ⟨-, rfl⟩ := Prod.mk.inj hbegun
      exact ⟨true, rfl, .inl rfl⟩
  obtain ⟨locked, hsigns, hlocked⟩ := hlocked
  dsimp only
  split
  · have hkept : ∀ colour, ((World.stage load).setOverlay colour w').signs =
        { w.signs with locked } := fun _ => hsigns
    rw [hkept]
    exact .fades hop hlocked
  · have hfreed : ∀ colour, ((World.stage load).lockMovement false
        ((World.stage load).setOverlay colour w')).signs = { w.signs with locked := false } :=
      fun _ => congrArg (fun g : Signs => { g with locked := false }) hsigns
    rw [hfreed]
    exact .faded hop

/-- An execution does to the signs what `Signals` says. -/
theorem signals_execute (event : Event) (position : Nat) (op : Operation) (now : Nat)
    (entering : Bool) (progress : Progress) (voices : Voices) (w : World) :
    let r := execute (World.stage load) event position op now entering progress voices w
    Signals entering op r.flow w.signs r.state.signs := by
  intro r
  cases hquiet : op.isQuiet with
  | true =>
      have hsigns : r.state.signs = w.signs :=
        signs_execute_of_isQuiet event position hquiet now entering progress voices w
      rw [hsigns]
      exact .quiet hquiet
  | false =>
      cases op with
      | say say => exact signals_sayStep say voices now entering progress w
      | waitForKey => exact signals_keyStep entering w
      | hideBox => exact .closes
      | selection first second => exact signals_selectionStep first second entering progress w
      | entity cue => exact signals_entityStep cue voices entering w
      | fadeIn duration =>
          have heq : r = .plain voices
            (fadeStep (World.stage load) false (millis duration) now entering progress w) := rfl
          rw [heq, Effect.flow_plain, Effect.state_plain]
          exact signals_fadeStep rfl false _ now entering progress w
      | fadeOut duration =>
          have heq : r = .plain voices
            (fadeStep (World.stage load) true (millis duration) now entering progress w) := rfl
          rw [heq, Effect.flow_plain, Effect.state_plain]
          exact signals_fadeStep rfl true _ now entering progress w
      | _ => exact absurd hquiet.symm Bool.false_ne_true

/-- A turn does to the signs what the operation does that it executes. -/
theorem Tracker.exists_signals (load : String → Reported Scene) (now : Nat) {t : Tracker}
    {f : Frame} {below : List Frame} (h : settle t.frames = f :: below) (w : World) :
    ∃ op, f.operation? = some op ∧
      let r := f.perform (World.stage load) now op t.voices w
      let c := (turn (World.stage load) now t w).left
      Leaves (World.stage load) f below r c ∧ c.2.signs = r.state.signs ∧
        Signals f.justEntered op r.flow w.signs r.state.signs := by
  obtain ⟨op, hop, -, hleaves⟩ := exists_left (World.stage load) now h w
  refine ⟨op, hop, hleaves, hleaves.value_eq fun _ _ => rfl, ?_⟩
  exact signals_execute f.event f.cursor op now f.justEntered f.progress t.voices _

end

end Cutscene
