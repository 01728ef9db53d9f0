import Cutscene.Proofs.Tracker.Typing
import Cutscene.Proofs.World.Setting

/-!
# Texts at once and texts that are typed out

A text that is shown at once and the same text typed out, with nothing happening between its turns,
leave the same world, but for the clicks that sound and the journal, in which every turn writes a
line. So worlds are compared without these (`World.plot`): nothing that a text does looks at them
(`World.Unheeding`), and each turn of a typed text does no more to the rest than to append to the
text that is shown (`Tracker.Stint.plot_eq`).
-/

namespace Cutscene

open Tracker

namespace World

/-- The world without its clicks and its journal. -/
def plot (w : World) : World :=
  { w with clicks := 0, chronicle := { w.chronicle with journal := #[] } }

theorem eq_of_plot_eq {w w' : World} (h : w'.plot = w.plot) :
    w' = { w with
      clicks := w'.clicks
      chronicle := { w.chronicle with journal := w'.chronicle.journal } } := by
  obtain ⟨⟨flags, log, journal⟩, scene, directory, library, entities, triggers, lastTrigger,
    doors, player, input, narrative, transcript, clicks, overlay, locked, music, tiles, script,
    origin⟩ := w
  obtain ⟨⟨flags', log', journal'⟩, scene', directory', library', entities', triggers',
    lastTrigger', doors', player', input', narrative', transcript', clicks', overlay', locked',
    music', tiles', script', origin'⟩ := w'
  simp only [plot, mk.injEq, Chronicle.mk.injEq] at h ⊢
  simp [h]

/-- What is done to a world does not depend on clicks and journal, but for themselves. -/
def Unheeding (act : World → World) : Prop := ∀ w, (act w).plot = (act w.plot).plot

theorem Unheeding.comp {act act' : World → World} (h : Unheeding act) (h' : Unheeding act') :
    Unheeding fun w => act (act' w) := by
  intro w
  rw [h, h', ← h]

theorem Unheeding.congr {act : World → World} (h : Unheeding act) {w w' : World}
    (heq : w.plot = w'.plot) : (act w).plot = (act w').plot := by
  rw [h, heq, ← h]

@[simp] theorem narrative_plot (w : World) : w.plot.narrative = w.narrative := rfl

@[simp] theorem entities_plot (w : World) : w.plot.entities = w.entities := rfl

theorem appendText_empty (w : World) : w.appendText "" = w := by
  rw [appendText, String.append_empty]

theorem appendText_appendText (text text' : String) (w : World) :
    (w.appendText text).appendText text' = w.appendText (text ++ text') := by
  simp only [appendText, String.append_assoc]

/-- A text that is shown in place of nothing might as well be appended. -/
theorem setText_of_empty {w : World} (h : w.narrative.text = "") (text : String) :
    w.setText text = w.appendText text := by
  rw [setText, flushDialog, if_pos h, appendText, h, String.empty_append]

theorem unheeding_entityCue (name : String) (cue : Cue) : Unheeding (entityCue name cue) := by
  intro w
  simp only [entityCue, entities_plot]
  cases w.entities[name]? with
  | none => rfl
  | some e =>
      dsimp only
      cases e.cueLabel? cue with
      | none => rfl
      | some label => rfl

theorem unheeding_setText (text : String) : Unheeding (setText text) := by
  intro w
  unfold setText flushDialog
  by_cases hempty : w.narrative.text = ""
  · have hempty' : w.plot.narrative.text = "" := hempty
    rw [if_pos hempty, if_pos hempty']
    rfl
  · have hempty' : ¬w.plot.narrative.text = "" := hempty
    rw [if_neg hempty, if_neg hempty']
    rfl

variable {load : String → Reported Scene}

theorem unheeding_beginSay (say : Say) (voices : Voices) :
    Unheeding (beginSay (stage load) say voices) := by
  have hbox : Unheeding fun w => if w.narrative.isOpen then w else w.openBox := by
    intro w
    cases hopen : w.narrative.isOpen with
    | true =>
        simp only [narrative_plot, hopen, if_true]
        rfl
    | false =>
        simp only [narrative_plot, hopen, Bool.false_eq_true, if_false]
        rfl
  have hpage : Unheeding fun w => if say.append then w else w.setText "" := by
    split
    · exact fun _ => rfl
    · exact unheeding_setText ""
  obtain ⟨speaker, music⟩ := voices
  cases speaker with
  | none => exact hpage.comp hbox
  | some speaker =>
      have hface : Unheeding fun w =>
          if say.expression.isSome then w.showExpression say.expression else w := by
        split
        · exact fun _ => rfl
        · exact fun _ => rfl
      exact hpage.comp (hbox.comp ((unheeding_entityCue speaker (.speech true)).comp hface))

theorem unheeding_endSpeech (voices : Voices) : Unheeding (endSpeech (stage load) voices) := by
  unfold endSpeech cueSpeaker
  cases voices.speaker with
  | none => exact fun _ => rfl
  | some speaker => exact unheeding_entityCue speaker _

end World

section

variable {load : String → Reported Scene} {f f₀ : Frame} {below below₀ : List Frame} {say : Say}
  {shown rest : List Char} {last : Option ℕ}

variable (load) in
/-- One turn of a text that is typed out: but for clicks and journal it begins the text if it is
entered, and it appends what is due. -/
theorem Frame.Types.exists_plot_eq (h : f.Types shown last) (hpace : 0 ≤ say.intervalMs)
    (htext : say.text.toList = shown ++ rest) (now : ℕ) {c : Tracker × World}
    (hsettle : settle c.1.frames = f :: below) (hop : f.operation? = some (.say say)) :
    let due := say.due now last rest
    ∃ w, w.plot = (if f.justEntered then (beginSay (World.stage load) say c.1.voices c.2).plot
        else c.2.plot).appendText (String.ofList due) ∧
      turn (World.stage load) now c.1 c.2 =
        if due = rest then
          .more ⟨f.advance :: below, c.1.voices⟩ (endSpeech (World.stage load) c.1.voices w)
        else .ended .suspended ⟨f.suspend (.say (byteSize (shown ++ due)) (shown ++ due).length
          (if due = [] then last else some now)) :: below, c.1.voices⟩ w := by
  intro due
  obtain ⟨line, begun, w, hbegun, hw, hturn⟩ :=
    h.turn_eq hpace htext (World.stage load) now hsettle hop
  have hplot : begun.plot = if f.justEntered then
      (beginSay (World.stage load) say c.1.voices c.2).plot else c.2.plot := by
    rw [hbegun]
    split
    · exact (World.unheeding_beginSay say c.1.voices).congr rfl
    · rfl
  refine ⟨w, ?_, hturn⟩
  rw [hw, ← hplot]
  by_cases hdue : say.due now last rest = []
  · simp only [due, hdue, if_true]
    exact (World.appendText_empty _).symm
  · rw [if_neg hdue]
    split
    · rfl
    · rfl

variable {time : ℕ → ℕ} {place : ℕ → Tracker × World} {n i : ℕ}

namespace Tracker

/-- What a turn of a text adds to what is shown. -/
theorem Typing.join_typedBefore_succ {done : List (List Char)}
    (h : Typing (World.stage load) say time place i f done rest last) (hpace : 0 ≤ say.intervalMs)
    (hsettle : settle (place i).1.frames = f :: below) (hop : f.operation? = some (.say say)) :
    String.join (typedBefore (World.stage load) time place (i + 1)) =
      String.join (typedBefore (World.stage load) time place i) ++
        String.ofList (say.due (time i) last rest) := by
  obtain ⟨htyped, -⟩ := h.types.told_eq hpace h.text (World.stage load) (time i) hsettle hop
  rw [typedBefore_succ, String.join_append, htyped, join_map_ofList, Say.flatten_dueChunks]

/-- At each turn of a text between whose turns nothing happens the frames and the speaker are what
they were, and the world is that at whose beginning the text began, but for clicks and journal and
for what is shown. -/
theorem Stint.plot_eq (h : Stint (World.stage load) Eq (.say say) time place n)
    (hpace : 0 ≤ say.intervalMs) (hi : i ≤ n)
    (hfirst : settle (place 0).1.frames = f₀ :: below₀)
    (hsettle : settle (place i).1.frames = f :: below) :
    let begins w := (beginSay (World.stage load) say (place 0).1.voices w).plot
    f.advance :: below = f₀.advance :: below₀ ∧ (place i).1.voices = (place 0).1.voices ∧
      (if f.justEntered then begins (place i).2 else (place i).2.plot) =
        (begins (place 0).2).appendText
          (String.join (typedBefore (World.stage load) time place i)) := by
  intro begins
  induction i generalizing f below with
  | zero =>
      obtain ⟨g, rest, hsettle', -, hentered⟩ := h.enters
      obtain ⟨rfl, rfl⟩ := List.cons.inj (hfirst.symm.trans hsettle)
      obtain ⟨rfl, rfl⟩ := List.cons.inj (hsettle.symm.trans hsettle')
      refine ⟨rfl, rfl, ?_⟩
      rw [if_pos hentered]
      exact (World.appendText_empty _).symm
  | succ i ih =>
      obtain ⟨g, rest, done, left, last, hsettle', hop, htyping⟩ :=
        h.exists_typing hpace (Nat.le_of_succ_le hi)
      obtain ⟨hadvance, hvoices, hplot⟩ := ih (Nat.le_of_succ_le hi) hsettle'
      obtain ⟨w, hw, hturn⟩ :=
        htyping.types.exists_plot_eq load hpace htyping.text (time i) hsettle' hop
      by_cases hend : say.due (time i) last left = left
      · rw [if_pos hend] at hturn
        exact absurd hturn (h.not_more hi _ _)
      rw [if_neg hend] at hturn
      obtain ⟨-, hnext⟩ := h.next hi hturn
      -- with nothing in between, the next turn begins with what this one leaves
      rw [← hnext, settle_suspend hsettle'] at hsettle
      obtain ⟨rfl, rfl⟩ := List.cons.inj hsettle
      rw [hvoices] at hw
      rw [← hnext]
      refine ⟨hadvance, hvoices, ?_⟩
      rw [if_neg (by simp [Frame.suspend]), hw, hplot, World.appendText_appendText,
        htyping.join_typedBefore_succ hpace hsettle' hop]

/-- The turn with which such a text is done. -/
theorem Stint.exists_plot_of_more (h : Stint (World.stage load) Eq (.say say) time place n)
    (hpace : 0 ≤ say.intervalMs) (hfirst : settle (place 0).1.frames = f₀ :: below₀) {t : Tracker}
    {w : World} (hturn : turn (World.stage load) (time n) (place n).1 (place n).2 = .more t w) :
    let voices := (place 0).1.voices
    t = ⟨f₀.advance :: below₀, voices⟩ ∧
      w.plot = (endSpeech (World.stage load) voices
        ((beginSay (World.stage load) say voices (place 0).2).plot.appendText say.text)).plot := by
  intro voices
  obtain ⟨f, below, done, rest, last, hsettle, hop, htyping⟩ :=
    h.exists_typing hpace (Nat.le_refl n)
  obtain ⟨hadvance, hvoices, hplot⟩ := h.plot_eq hpace (Nat.le_refl n) hfirst hsettle
  obtain ⟨w', hw', hturn'⟩ :=
    htyping.types.exists_plot_eq load hpace htyping.text (time n) hsettle hop
  rw [hturn'] at hturn
  by_cases hend : say.due (time n) last rest = rest
  · rw [if_pos hend] at hturn
    obtain ⟨rfl, rfl⟩ := Turn.more.inj hturn
    rw [hvoices] at hw' ⊢
    have hall : String.join (typedBefore (World.stage load) time place n) ++
        String.ofList (say.due (time n) last rest) = say.text := by
      rw [htyping.shown, join_map_ofList, hend, ← String.ofList_append, ← htyping.text,
        String.ofList_toList]
    refine ⟨by rw [hadvance], ?_⟩
    rw [hplot, World.appendText_appendText, hall] at hw'
    rw [World.unheeding_endSpeech, hw']
  · rw [if_neg hend] at hturn
    cases hturn

end Tracker

variable (load) in
/-- A text that is not appended begins with an empty page. -/
theorem text_beginSay (happend : say.append = false) (voices : Voices) (w : World) :
    (beginSay (World.stage load) say voices w).narrative.text = "" := by
  unfold beginSay
  dsimp only
  rw [happend, if_neg Bool.false_ne_true]
  rfl

variable (load) in
/-- All of a text, but for the click, is appended to what is shown when the text has begun. -/
theorem plot_sayAtOnce (say : Say) (voices : Voices) (w : World) :
    (sayAtOnce (World.stage load) say voices (beginSay (World.stage load) say voices w)).plot =
      (endSpeech (World.stage load) voices
        ((beginSay (World.stage load) say voices w).plot.appendText say.text)).plot := by
  unfold sayAtOnce
  dsimp only
  rw [World.unheeding_endSpeech]
  congr 2
  -- a text that is set finds its page empty, so no page goes to the transcript a second time
  cases happend : say.append with
  | true => rfl
  | false =>
      have hempty : ((World.stage load).dialogClick
          (beginSay (World.stage load) say voices w)).narrative.text = "" :=
        text_beginSay load happend voices w
      exact congrArg World.plot (World.setText_of_empty hempty say.text)

variable (load) in
/-- A text that is shown at once. -/
theorem exists_plot_of_atOnce (now : ℕ) {c : Tracker × World}
    (hsettle : settle c.1.frames = f :: below) (hop : f.operation? = some (.say say))
    (hentered : f.justEntered = true) (hat : say.intervalMs < 0) :
    ∃ w, turn (World.stage load) now c.1 c.2 = .more ⟨f.advance :: below, c.1.voices⟩ w ∧
      w.plot = (endSpeech (World.stage load) c.1.voices
        ((beginSay (World.stage load) say c.1.voices c.2).plot.appendText say.text)).plot := by
  have hstep : ∀ w, sayStep (World.stage load) say c.1.voices now f.justEntered f.progress w =
      (.next, sayAtOnce (World.stage load) say c.1.voices
        (beginSay (World.stage load) say c.1.voices w)) := by
    intro w
    unfold sayStep
    rw [hentered, if_pos hat]
    rfl
  obtain ⟨line, hperform⟩ : ∃ line, f.perform (World.stage load) now (.say say) c.1.voices c.2 =
      .plain c.1.voices (.next, sayAtOnce (World.stage load) say c.1.voices
        (beginSay (World.stage load) say c.1.voices ((World.stage load).note line c.2))) :=
    ⟨_, congrArg (Effect.plain c.1.voices) (hstep _)⟩
  have hbegun : (beginSay (World.stage load) say c.1.voices ((World.stage load).note line c.2)).plot
      = (beginSay (World.stage load) say c.1.voices c.2).plot :=
    (World.unheeding_beginSay say c.1.voices).congr rfl
  rw [turn_eq_follow hsettle hop, hperform]
  refine ⟨_, follow_next rfl, ?_⟩
  rw [Effect.state_plain, plot_sayAtOnce, hbegun]

/-- The beginning of a text does not depend on its interval. -/
theorem beginSay_withInterval {σ : Type} (stage : Stage σ) (say : Say) (ms : Int64) :
    beginSay stage { say with intervalMs := ms } = beginSay stage say := rfl

/-- A text at once and the same text typed out, with nothing between its turns: said from the same
world by the same speaker, both go on with the next operation, the same speaker and the same world,
but for the clicks and the journal. -/
theorem said_alike {ms : Int64} {c : Tracker × World} (now : ℕ) (hpace : 0 ≤ say.intervalMs)
    (h : Stint (World.stage load) Eq (.say say) time place n)
    (hfirst : settle (place 0).1.frames = f₀ :: below₀) (hms : ms < 0)
    (hsettle : settle c.1.frames = f :: below)
    (hop : f.operation? = some (.say { say with intervalMs := ms }))
    (hentered : f.justEntered = true) (hvoices : c.1.voices = (place 0).1.voices)
    (hworld : c.2 = (place 0).2) :
    ∃ w, turn (World.stage load) now c.1 c.2 = .more ⟨f.advance :: below, c.1.voices⟩ w ∧
      ∀ t w', turn (World.stage load) (time n) (place n).1 (place n).2 = .more t w' →
        t = ⟨f₀.advance :: below₀, c.1.voices⟩ ∧
        w' = { w with
          clicks := w'.clicks
          chronicle := { w.chronicle with journal := w'.chronicle.journal } } := by
  obtain ⟨w, hturn, hplot⟩ := exists_plot_of_atOnce load now hsettle hop hentered hms
  refine ⟨w, hturn, fun t w' hturn' => ?_⟩
  obtain ⟨ht, hplot'⟩ := h.exists_plot_of_more hpace hfirst hturn'
  rw [beginSay_withInterval, hvoices, hworld] at hplot
  rw [hvoices]
  exact ⟨ht, World.eq_of_plot_eq (hplot'.trans hplot.symm)⟩

/-- A text that is said in a world with another text in its box. -/
def sighed (say : Say) : Tracker × World :=
  (⟨[.start (.make 0 (some "hum") [.say say])], .silent⟩,
    { World.blank with narrative := ⟨true, "Ah", false, none, none⟩ })

theorem said_alike_humming :
    let place := onward (World.stage World.noScene) humTime (fun _ => id) (sighed hum)
    let c := sighed { hum with intervalMs := -1 }
    ∃ t w t' w', turn (World.stage World.noScene) 0 c.1 c.2 = .more t w ∧
      turn (World.stage World.noScene) (humTime 5) (place 5).1 (place 5).2 = .more t' w' ∧
      w.narrative.text = "é 𝄞 " ∧ w.transcript = #["Ah"] ∧ w.clicks = 1 ∧
      w' = { w with
        clicks := w'.clicks
        chronicle := { w.chronicle with journal := w'.chronicle.journal } } := by
  intro place c
  have hstint : Stint (World.stage World.noScene) Eq (.say hum) humTime place 5 := by
    refine stint_onward (fun _ _ => rfl) rfl rfl rfl fun i hi => ?_
    interval_cases i <;> exact ⟨_, _, rfl⟩
  have hplay : ∃ t w t' w', turn (World.stage World.noScene) 0 c.1 c.2 = .more t w ∧
      turn (World.stage World.noScene) (humTime 5) (place 5).1 (place 5).2 = .more t' w' ∧
      w.narrative.text = "é 𝄞 " ∧ w.transcript = #["Ah"] ∧ w.clicks = 1 :=
    ⟨_, _, _, _, rfl, rfl, rfl, rfl, rfl⟩
  obtain ⟨t, w, t', w', hturn, hturn', htext, hpages, hclicks⟩ := hplay
  obtain ⟨w₀, hturn₀, halike⟩ := said_alike 0 (c := c) (by decide) hstint rfl
    (by decide : (-1 : Int64) < 0) rfl rfl rfl rfl rfl
  obtain ⟨-, rfl⟩ := Turn.more.inj (hturn.symm.trans hturn₀)
  exact ⟨t, w, t', w', hturn, hturn', htext, hpages, hclicks, (halike t' w' hturn').2⟩

end

end Cutscene
