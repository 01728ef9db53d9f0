import Mathlib.Data.Finset.Card
import Cutscene.Proofs.Session.Speakers
import Cutscene.Proofs.Session.UnseenTexts

/-!
# Mouths that stay open

A text opens the mouth of the speaker when it begins, and it closes the mouth of the speaker when it
ends. If no event changes the speaker in between, these are one and the same, and every mouth is
closed again.

At any time at most as many mouths are open as texts are under way (`MouthsMatched`). This breaks in
exactly two ways (`StrandsMouth`, `mouthsMatched_turn_iff`): a text ends and the speaker's mouth is
not open, or a cue opens a mouth without a text. With nothing left to run, no mouth is open if it
has not been broken (`hushed_when_idle`), and it can be broken: the speaker of a text may leave
before its end (`mouth_open_behind_leave`).
-/

namespace Cutscene

namespace Operation

/-- Whether an operation is a text. -/
def isSay : Operation → Bool
  | say _ => true
  | _ => false

/-- Whether an operation has nothing to do with mouths. -/
def isTacit : Operation → Bool
  | say _ => false
  | entity _ => false
  | sceneLoad .. => false
  | _ => true

end Operation

/-! ## The entities that speak -/

namespace World

/-- Whether the mouth of an entity is open. -/
def speaks (name : String) (w : World) : Bool := w.entities[name]?.any (·.speaking)

/-- The names of the entities whose mouths are open. -/
def speaking (w : World) : Finset String := (w.entities.keys.filter (w.speaks ·)).toFinset

theorem mem_speaking {name : String} {w : World} : name ∈ w.speaking ↔ w.speaks name = true := by
  rw [speaking, List.mem_toFinset, List.mem_filter, and_iff_right_iff_imp, Std.ExtTreeMap.mem_keys]
  intro hspeaks
  obtain ⟨e, he, -⟩ := (Option.any_eq_true _ _).1 hspeaks
  exact Std.ExtTreeMap.mem_iff_isSome_getElem?.2 (by rw [he, Option.isSome_some])

theorem notMem_speaking {name : String} {w : World} :
    name ∉ w.speaking ↔ w.speaks name = false := by
  rw [mem_speaking, Bool.not_eq_true]

theorem speaking_of_entities {w w' : World} (h : w'.entities = w.entities) :
    w'.speaking = w.speaking := by
  ext name
  rw [mem_speaking, mem_speaking, speaks, h, speaks]

/-- A cue changes the entity that it is for and no other. -/
theorem getElem?_entityCue (name other : String) (cue : Cue) (w : World) :
    (w.entityCue name cue).entities[other]? =
      if name = other then w.entities[name]?.map (·.follow cue) else w.entities[other]? := by
  unfold entityCue
  split
  · rename_i hnone
    rw [hnone, Option.map_none]
    split
    · rename_i heq
      rw [← heq]
      exact hnone
    · rfl
  · rename_i e he
    have hinserted : (w.entities.insert name (e.follow cue))[other]? =
        if name = other then some (e.follow cue) else w.entities[other]? := by
      rw [Std.ExtTreeMap.getElem?_insert]
      simp only [Std.compare_eq_iff_eq]
    rw [he, Option.map_some, ← hinserted]
    dsimp only
    split <;> rfl

theorem speaks_entityCue (name other : String) (cue : Cue) (w : World) :
    (w.entityCue name cue).speaks other =
      if name = other then w.entities[name]?.any fun e => (e.follow cue).speaking
      else w.speaks other := by
  rw [speaks, getElem?_entityCue]
  split
  · exact Option.any_map
  · rfl

/-- A text that begins opens the mouth of an entity that the scene has. -/
theorem speaking_speech_true {name : String} {w : World} (h : w.hasEntity name = true) :
    (w.entityCue name (.speech true)).speaking = insert name w.speaking := by
  obtain ⟨e, he⟩ : ∃ e, w.entities[name]? = some e := by
    rw [hasEntity, ← Std.ExtTreeMap.isSome_getElem?_eq_contains] at h
    exact Option.isSome_iff_exists.1 h
  ext other
  rw [Finset.mem_insert, mem_speaking, mem_speaking, speaks_entityCue]
  by_cases heq : name = other
  · rw [if_pos heq, he]
    exact iff_of_true rfl (.inl heq.symm)
  · rw [if_neg heq, or_iff_right (Ne.symm heq)]

theorem speaking_speech_false (name : String) (w : World) :
    (w.entityCue name (.speech false)).speaking = w.speaking.erase name := by
  ext other
  rw [Finset.mem_erase, mem_speaking, mem_speaking, speaks_entityCue]
  by_cases heq : name = other
  · rw [if_pos heq]
    refine iff_of_false ?_ fun h => h.1 heq.symm
    cases w.entities[name]? with
    | none => exact Bool.false_ne_true
    | some e => exact Bool.false_ne_true
  · rw [if_neg heq, and_iff_right (Ne.symm heq)]

theorem speaking_of_not_hasEntity {name : String} {w : World} (h : w.hasEntity name = false)
    (cue : Cue) : (w.entityCue name cue).speaking = w.speaking := by
  rw [entityCue_of_not_hasEntity h]
  exact speaking_of_entities rfl

/-- Other cues open and close no mouth. -/
theorem speaking_entityCue {cue : Cue} (hcue : ∀ active, cue ≠ .speech active) (name : String)
    (w : World) : (w.entityCue name cue).speaking = w.speaking := by
  ext other
  rw [mem_speaking, mem_speaking, speaks_entityCue]
  by_cases heq : name = other
  · rw [if_pos heq, ← heq, speaks]
    cases cue with
    | speech active => exact absurd rfl (hcue active)
    | _ => rfl
  · rw [if_neg heq]

end World

/-! ## What each operation does -/

/-- What is left of some open mouths when that of the speaker is closed. -/
def Voices.hush (voices : Voices) (mouths : Finset String) : Finset String :=
  voices.speaker.elim mouths mouths.erase

namespace Voices

variable {voices : Voices} {mouths : Finset String}

theorem hush_insert {name : String} (h : name ∈ voices.speaker) (mouths : Finset String) :
    voices.hush (insert name mouths) = voices.hush mouths := by
  rw [hush, hush, show voices.speaker = some name from h]
  exact Finset.erase_insert_eq_erase mouths name

/-- Nothing closes if the speaker's mouth is not open. -/
theorem hush_eq_self (h : ∀ name ∈ voices.speaker, name ∉ mouths) : voices.hush mouths = mouths := by
  unfold hush
  cases hspeaker : voices.speaker with
  | none => rfl
  | some speaker => exact Finset.erase_eq_of_notMem (h speaker hspeaker)

theorem card_hush {name : String} (hspeaker : name ∈ voices.speaker) (hname : name ∈ mouths) :
    (voices.hush mouths).card = mouths.card - 1 := by
  rw [hush, show voices.speaker = some name from hspeaker]
  exact Finset.card_erase_of_mem hname

theorem card_hush_le : (voices.hush mouths).card ≤ mouths.card := by
  unfold hush
  cases voices.speaker with
  | none => exact le_rfl
  | some speaker => exact Finset.card_erase_le

/-- Of one mouth too many there is none left, if that of the speaker was open. -/
theorem card_hush_le_iff {below : ℕ} (hle : mouths.card ≤ below + 1) :
    (voices.hush mouths).card ≤ below ↔
      ¬(mouths.card = below + 1 ∧ ∀ name ∈ voices.speaker, name ∉ mouths) := by
  by_cases hopen : ∃ name ∈ voices.speaker, name ∈ mouths
  · obtain ⟨name, hspeaker, hname⟩ := hopen
    rw [card_hush hspeaker hname]
    exact iff_of_true (by omega) fun hmore => hmore.2 name hspeaker hname
  · have hclosed : ∀ name ∈ voices.speaker, name ∉ mouths := fun name hspeaker hname =>
      hopen ⟨name, hspeaker, hname⟩
    rw [hush_eq_self hclosed, and_iff_left hclosed]
    omega

end Voices

/-- A mouth that opens is one too many, if it was closed and there were enough. -/
theorem card_insert_le_iff {name : String} {mouths : Finset String} {below : ℕ}
    (hle : mouths.card ≤ below) :
    (insert name mouths).card ≤ below ↔ ¬(mouths.card = below ∧ name ∉ mouths) := by
  by_cases hname : name ∈ mouths
  · rw [Finset.insert_eq_of_mem hname]
    exact iff_of_true hle fun hmore => hmore.2 hname
  · rw [Finset.card_insert_of_notMem hname, and_iff_left hname]
    omega

/-- What an execution does to the open mouths; `has` tells which entities the scene has. -/
inductive Mouths (voices : Voices) (has : String → Bool) (entering : Bool) :
    Operation → Flow → Finset String → Finset String → Prop
  | tacit {op : Operation} {flow : Flow} {m : Finset String} (hop : op.isTacit = true) :
      Mouths voices has entering op flow m m
  /-- A text begins, and the speaker's mouth opens. -/
  | begins {say : Say} {p : Progress} {m m' : Finset String} (hentering : entering = true)
      (hopened : m' = m ∨ ∃ name ∈ voices.speaker, m' = insert name m) :
      Mouths voices has entering (.say say) (.suspend p) m m'
  | goesOn {say : Say} {p : Progress} {m : Finset String} (hentering : entering = false) :
      Mouths voices has entering (.say say) (.suspend p) m m
  /-- A text ends, and the speaker's mouth closes. -/
  | ends {say : Say} {m : Finset String} :
      Mouths voices has entering (.say say) .next m (voices.hush m)
  /-- A cue opens the speaker's mouth without a text. -/
  | opens {name : String} {m : Finset String} (hspeaker : name ∈ voices.speaker)
      (hhas : has name = true) :
      Mouths voices has entering (.entity (.speech true)) .next m (insert name m)
  | closes {m : Finset String} :
      Mouths voices has entering (.entity (.speech false)) .next m (voices.hush m)
  /-- Other cues touch no mouth, and no cue reaches an entity that the scene lacks. -/
  | cues {cue : Cue} {m : Finset String}
      (hcue : cue = .speech true → ∀ name ∈ voices.speaker, has name = false) :
      Mouths voices has entering (.entity cue) .next m m
  /-- A scene that is entered has no open mouth. -/
  | leaves {path : String} {door : Option String} {m m' : Finset String} (hleft : m' = m ∨ m' = ∅) :
      Mouths voices has entering (.sceneLoad path door) .next m m'

/-- A stage that gives no cues. -/
def Stage.cueless {σ : Type} (stage : Stage σ) : Stage σ :=
  { stage with entityCue := fun _ _ s => s }

/-- On a world that gives no cues nothing opens or closes a mouth. -/
theorem World.cueless_keeps (load : String → Reported Scene) (mouths : Finset String) :
    (stage load).cueless.Keeps (·.speaking = mouths) where
  note _ _ h := h
  setFlag _ _ h := h
  unsetFlag _ _ h := h
  consume _ _ h := h
  openBox _ h := h
  closeBox w h := (speaking_of_entities w.entities_flushDialog).trans h
  setText _ w h := (speaking_of_entities w.entities_flushDialog).trans h
  appendText _ _ h := h
  setOverlay _ _ h := h
  lockMovement _ _ h := h
  showCursor _ _ h := h
  showOptions _ _ _ w h := (speaking_of_entities (w.entities_showOptions _ _ _)).trans h
  hideOptions w h := (speaking_of_entities w.entities_hideOptions).trans h
  showExpression _ _ h := h
  dialogClick _ h := h
  playMusic _ _ _ h := h
  stopMusic _ h := h
  pauseMusic _ h := h
  resumeMusic _ h := h
  entityCue _ _ _ h := h
  setTile _ _ _ _ _ h := h

section

variable {load : String → Reported Scene} {voices : Voices}

/-- A tacit operation does without cues what it does anyway. -/
theorem execute_cueless {σ : Type} (stage : Stage σ) (event : Event) (position : Nat)
    {op : Operation} (hop : op.isTacit = true) (now : Nat) (entering : Bool) (progress : Progress)
    (voices : Voices) (s : σ) :
    execute stage.cueless event position op now entering progress voices s =
      execute stage event position op now entering progress voices s := by
  cases op with
  | say | entity | sceneLoad => exact absurd hop Bool.false_ne_true
  | _ => rfl

theorem speaking_execute_of_isTacit (event : Event) (position : Nat) {op : Operation}
    (hop : op.isTacit = true) (now : Nat) (entering : Bool) (progress : Progress) (voices : Voices)
    (w : World) :
    (execute (World.stage load) event position op now entering progress voices w).state.speaking =
      w.speaking := by
  have hscene : op.loadsScene = false := by
    cases op with
    | sceneLoad path door => exact absurd hop Bool.false_ne_true
    | _ => rfl
  rw [← execute_cueless _ event position hop]
  exact (World.cueless_keeps load w.speaking).execute event position now entering progress voices
    hscene rfl

theorem speaking_endSpeech (w : World) :
    (endSpeech (World.stage load) voices w).speaking = voices.hush w.speaking := by
  unfold endSpeech cueSpeaker Voices.hush
  cases voices.speaker with
  | none => rfl
  | some speaker => exact World.speaking_speech_false speaker w

/-- A text that begins opens the mouth of the speaker. -/
theorem speaking_beginSay (load : String → Reported Scene) (say : Say) (voices : Voices)
    (w : World) :
    let w' := beginSay (World.stage load) say voices w
    w'.speaking = w.speaking ∨ ∃ name ∈ voices.speaker, w'.speaking = insert name w.speaking := by
  unfold beginSay
  extract_lets faced spoken opened
  have hspoken : spoken.speaking = w.speaking ∨
      ∃ name ∈ voices.speaker, spoken.speaking = insert name w.speaking := by
    unfold spoken
    cases voices.speaker with
    | none => exact .inl rfl
    | some speaker =>
        have hfaced : faced.speaking = w.speaking := by
          unfold faced
          split <;> rfl
        rw [← hfaced]
        cases hhas : faced.hasEntity speaker with
        | true => exact .inr ⟨speaker, rfl, World.speaking_speech_true hhas⟩
        | false => exact .inl (World.speaking_of_not_hasEntity hhas _)
  have hopened : opened.speaking = spoken.speaking := by
    unfold opened
    split <;> rfl
  have hpage : (if say.append then opened else (World.stage load).setText "" opened).speaking =
      opened.speaking := by
    split
    · rfl
    · exact World.speaking_of_entities opened.entities_flushDialog
  rw [hpage, hopened]
  exact hspoken

/-- A text ends and closes the mouth of the speaker, or it goes on. -/
def ClosesAtEnd (voices : Voices) (w : World) (r : Flow × World) : Prop :=
  (r.1 = .next ∧ r.2.speaking = voices.hush w.speaking) ∨
    (∃ p, r.1 = .suspend p) ∧ r.2.speaking = w.speaking

theorem closesAtEnd_ite {w w' : World} (hw' : w'.speaking = w.speaking) {done : Prop}
    [Decidable done] {p : Progress} :
    ClosesAtEnd voices w (if done then (Flow.next, endSpeech (World.stage load) voices w')
      else (Flow.suspend p, w')) := by
  by_cases hdone : done
  · rw [if_pos hdone]
    exact .inl ⟨rfl, by rw [speaking_endSpeech, hw']⟩
  · rw [if_neg hdone]
    exact .inr ⟨⟨p, rfl⟩, hw'⟩

theorem closesAtEnd_typeOut (say : Say) (now offset revealed : Nat) (last : Option Nat)
    (w : World) :
    ClosesAtEnd voices w (typeOut (World.stage load) say voices now offset revealed last w) := by
  have hclick : (if revealed % dialogClickInterval = 0 then
      (World.stage load).dialogClick w else w).speaking = w.speaking := by
    split <;> rfl
  unfold typeOut
  dsimp only
  split
  · apply closesAtEnd_ite
    exact hclick
  · exact closesAtEnd_ite rfl

theorem speaking_sayAtOnce (say : Say) (w : World) :
    (sayAtOnce (World.stage load) say voices w).speaking = voices.hush w.speaking := by
  unfold sayAtOnce
  rw [speaking_endSpeech]
  cases say.append with
  | true => rfl
  | false => exact congrArg _ (World.speaking_of_entities (World.entities_flushDialog _))

/-- A text that has begun closes the mouth of the speaker when it ends. -/
theorem closesAtEnd_sayStep (say : Say) (now : Nat) (progress : Progress) (w : World) :
    ClosesAtEnd voices w (sayStep (World.stage load) say voices now false progress w) := by
  unfold sayStep
  dsimp only
  split
  · exact .inl ⟨rfl, speaking_sayAtOnce say _⟩
  · split
    · exact closesAtEnd_typeOut say now _ _ _ _
    · exact closesAtEnd_typeOut say now _ _ _ _

theorem mouths_sayStep (has : String → Bool) (say : Say) (now : Nat) (entering : Bool)
    (progress : Progress) (w : World) :
    let r := sayStep (World.stage load) say voices now entering progress w
    Mouths voices has entering (.say say) r.1 w.speaking r.2.speaking := by
  intro r
  cases entering with
  | false =>
      have hends : ClosesAtEnd voices w r := closesAtEnd_sayStep say now progress w
      rcases hends with ⟨hflow, hmouths⟩ | ⟨⟨p, hflow⟩, hmouths⟩
      · rw [show r.1 = .next from hflow, show r.2.speaking = _ from hmouths]
        exact .ends
      · rw [show r.1 = .suspend p from hflow, show r.2.speaking = _ from hmouths]
        exact .goesOn rfl
  | true =>
      have hbegun := speaking_beginSay load say voices w
      have hends : ClosesAtEnd voices (beginSay (World.stage load) say voices w) r :=
        closesAtEnd_sayStep say now .fresh _
      rcases hends with ⟨hflow, hmouths⟩ | ⟨⟨p, hflow⟩, hmouths⟩
      · -- the mouth that has opened is closed at once
        have hhushed : voices.hush (beginSay (World.stage load) say voices w).speaking =
            voices.hush w.speaking := by
          rcases hbegun with hsame | ⟨name, hspeaker, hopened⟩
          · rw [hsame]
          · rw [hopened, Voices.hush_insert hspeaker]
        rw [show r.1 = .next from hflow, show r.2.speaking = _ from hmouths, hhushed]
        exact .ends
      · rw [show r.1 = .suspend p from hflow, show r.2.speaking = _ from hmouths]
        exact .begins rfl hbegun

/-- A cue opens and closes a mouth only as a cue of speech. -/
theorem mouths_entityStep (cue : Cue) (entering : Bool) (w : World) :
    Mouths voices (w.hasEntity ·) entering (.entity cue) .next w.speaking
      (entityStep (World.stage load) cue voices w).2.speaking := by
  have hsame : ∀ w' : World, w'.entities = w.entities →
      (cue = .speech true → voices.speaker = none) →
      Mouths voices (w.hasEntity ·) entering (.entity cue) .next w.speaking w'.speaking := by
    intro w' hw' hnone
    rw [World.speaking_of_entities hw']
    exact .cues fun hcue name hname => by cases (hnone hcue).symm.trans hname
  unfold entityStep
  split
  · exact hsame _ rfl fun hcue => by cases hcue
  · split
    · exact hsame _ rfl fun hcue => by cases hcue
    · split
      · refine hsame _ ?_ fun hcue => by cases hcue
        dsimp only
        split <;> rfl
      · exact hsame _ rfl fun hcue => by cases hcue
  · rename_i hnone
    exact hsame _ rfl fun _ => hnone
  · rename_i x y speaker hspeaker
    have hmoved : ((World.stage load).entityCue speaker
        (.move (x * tileSize) (y * tileSize) true) w).speaking = w.speaking :=
      World.speaking_entityCue (fun _ hcue => by cases hcue) speaker w
    rw [hmoved]
    exact .cues fun hcue => by cases hcue
  · rename_i cue _ _ speaker _ _ _ hspeaker
    show Mouths voices (w.hasEntity ·) entering (.entity cue) .next w.speaking
      (w.entityCue speaker cue).speaking
    by_cases hcue : ∃ active, cue = .speech active
    · obtain ⟨active, rfl⟩ := hcue
      cases active with
      | true =>
          cases hhas : w.hasEntity speaker with
          | true =>
              rw [World.speaking_speech_true hhas]
              exact .opens hspeaker hhas
          | false =>
              rw [World.speaking_of_not_hasEntity hhas]
              refine .cues fun _ name hname => ?_
              obtain rfl := Option.some.inj (hspeaker.symm.trans hname)
              exact hhas
      | false =>
          have hhushed : voices.hush w.speaking = w.speaking.erase speaker := by
            rw [Voices.hush, hspeaker]
            rfl
          rw [World.speaking_speech_false, ← hhushed]
          exact .closes
    · rw [World.speaking_entityCue fun active heq => hcue ⟨active, heq⟩]
      exact .cues fun heq => absurd ⟨true, heq⟩ hcue

/-- The entities of a scene begin with their mouths closed. -/
theorem World.speaking_enter (scene : Scene) (door : Option String) (w : World) :
    (w.enter scene door).speaking = ∅ := by
  have hinserted : ∀ (es : List (String × Entity)) (m : Std.ExtTreeMap String Entity),
      (∀ e ∈ es, e.2.speaking = false) →
      (∀ name : String, m[name]?.any Entity.speaking = false) → ∀ name : String,
        (m.insertMany es)[name]?.any Entity.speaking = false := by
    intro es
    induction es with
    | nil => exact fun m _ hm => hm
    | cons e es ih =>
        intro m hes hm
        rw [Std.ExtTreeMap.insertMany_cons]
        refine ih _ (fun e he => hes e (List.mem_cons_of_mem _ he)) fun name => ?_
        rw [Std.ExtTreeMap.getElem?_insert]
        split
        · exact hes e List.mem_cons_self
        · exact hm name
  obtain ⟨journal, player, hentered⟩ := exists_enter_eq scene door w
  ext name
  rw [mem_speaking, speaks, hentered, Std.ExtTreeMap.ofList_eq_insertMany_empty,
    hinserted _ ∅ ?_ (fun _ => by simp) name]
  · simp
  · intro e he
    obtain ⟨x, -, rfl⟩ := List.mem_map.1 he
    rfl

theorem mouths_sceneLoadStep (has : String → Bool) (path : String) (door : Option String)
    (entering : Bool) (w : World) :
    Mouths voices has entering (.sceneLoad path door) .next w.speaking
      (sceneLoadStep (World.stage load) path door voices w).state.speaking := by
  obtain ⟨said, journal, -, hstate⟩ := World.exists_sceneLoadStep_eq load path door voices w
  rw [hstate]
  refine .leaves ?_
  rcases hload : load (Text.Path.join w.directory path) with ⟨lines, error | scene⟩
  · obtain ⟨journal', heq⟩ :=
      World.exists_loadScene_of_error (w := w.withJournal said) hload door
    rw [heq]
    exact .inl rfl
  · obtain ⟨journal', heq⟩ := World.exists_loadScene_of_ok (w := w.withJournal said) hload door
    rw [heq]
    exact .inr (World.speaking_enter scene door _)

/-- An execution does to the mouths what `Mouths` says. -/
theorem mouths_execute (event : Event) (position : Nat) (op : Operation) (now : Nat)
    (entering : Bool) (progress : Progress) (w : World) :
    let r := execute (World.stage load) event position op now entering progress voices w
    Mouths voices (w.hasEntity ·) entering op r.flow w.speaking r.state.speaking := by
  intro r
  cases htacit : op.isTacit with
  | true =>
      have hmouths : r.state.speaking = w.speaking :=
        speaking_execute_of_isTacit event position htacit now entering progress voices w
      rw [hmouths]
      exact .tacit htacit
  | false =>
      cases op with
      | say say => exact mouths_sayStep _ say now entering progress w
      | entity cue => exact mouths_entityStep cue entering w
      | sceneLoad path door => exact mouths_sceneLoadStep _ path door entering w
      | _ => cases htacit

end

/-! ## The texts that are under way -/

/-- Whether a frame is in the middle of a text. -/
def Frame.isTyping (f : Frame) : Bool :=
  !f.justEntered && !f.awaitingChild && f.operation?.any (·.isSay)

namespace Tracker

/-- How many texts are under way. -/
def texts (frames : List Frame) : ℕ := frames.countP Frame.isTyping

theorem isTyping_of_operation {f : Frame} {op : Operation} (hfree : f.awaitingChild = false)
    (hop : f.operation? = some op) : f.isTyping = (!f.justEntered && op.isSay) := by
  rw [Frame.isTyping, hfree, hop]
  simp

/-- Settling ends no text and begins none. -/
theorem texts_settle (fs : List Frame) : texts (settle fs) = texts fs := by
  induction fs with
  | nil => rfl
  | cons f fs ih =>
      have hresumed : f.resumed.isTyping = f.isTyping := by
        cases hawaiting : f.awaitingChild with
        | true => simp [Frame.resumed, hawaiting, Frame.isTyping, Frame.advance]
        | false => rw [Frame.resumed_of_not_awaiting hawaiting]
      cases hfinished : f.resumed.isFinished with
      | true =>
          have hnone : f.resumed.operation? = none :=
            List.getElem?_eq_none (of_decide_eq_true hfinished)
          have hidle : f.isTyping = false := by
            rw [← hresumed, Frame.isTyping, hnone, Option.any_none, Bool.and_false]
          rw [settle_cons_of_finished hfinished, ih, texts, texts, List.countP_cons, hidle]
          rfl
      | false =>
          rw [settle_cons_of_not_finished hfinished, texts, texts, List.countP_cons,
            List.countP_cons, hresumed]

section

variable {σ : Type} {stage : Stage σ} {f : Frame} {r : Effect σ}

theorem texts_queuedBelow (below : List Frame) : texts (queuedBelow r below) = texts below := by
  rw [queuedBelow_eq]
  cases r.queued with
  | none => simp [texts]
  | some e => simp [texts, Frame.isTyping, Frame.start]

/-- An execution that suspends in the middle of a text adds it to those below. -/
theorem texts_follow {op : Operation} (hfree : f.awaitingChild = false)
    (hop : f.operation? = some op) (below : List Frame) :
    texts (follow stage f below r).left.1.frames =
      texts below + if (r.flow.suspends && op.isSay) = true then 1 else 0 := by
  have hadvanced : f.advance.isTyping = false := rfl
  have hawaiting : f.await.isTyping = false := by simp [Frame.isTyping, Frame.await]
  have hstarted : ∀ e, (Frame.start e).isTyping = false := fun _ => rfl
  have hsuspended : ∀ p, (f.suspend p).isTyping = op.isSay := fun p =>
    isTyping_of_operation (f := f.suspend p) hfree hop
  rw [← texts_queuedBelow (r := r) below]
  cases hr : r.flow with
  | next =>
      rw [follow_next hr, Turn.left, texts, List.countP_cons, hadvanced]
      rfl
  | suspend p =>
      rw [follow_suspend hr, Turn.left, texts, List.countP_cons, hsuspended, texts]
      rfl
  | call e =>
      cases hruns : isRunning ⟨f.await :: queuedBelow r below, r.voices⟩ e with
      | true =>
          rw [follow_refused hr hruns, Turn.left, texts, List.countP_cons, hadvanced]
          rfl
      | false =>
          rw [follow_call hr hruns, Turn.left, texts, List.countP_cons, List.countP_cons,
            hstarted, hawaiting]
          rfl
  | cancel =>
      rw [follow_cancel hr, Turn.left]
      rfl

end

end Tracker

/-! ## Turns -/

/-- At most as many mouths are open as texts are under way. -/
def MouthsMatched (c : Tracker × World) : Prop :=
  c.2.speaking.card ≤ Tracker.texts c.1.frames

instance (c : Tracker × World) : Decidable (MouthsMatched c) :=
  inferInstanceAs (Decidable (_ ≤ _))

/-- With every text matched by an open mouth, the next turn ends a text while the speaker's mouth is
closed, or it opens a mouth without a text. -/
def StrandsMouth (load : String → Reported Scene) (now : Nat) (c : Tracker × World) : Prop :=
  c.2.speaking.card = Tracker.texts c.1.frames ∧
    ∃ f below op, Tracker.settle c.1.frames = f :: below ∧ f.operation? = some op ∧
      ((op.isSay = true ∧ f.justEntered = false ∧
          (f.perform (World.stage load) now op c.1.voices c.2).flow = .next ∧
          ∀ name ∈ c.1.voices.speaker, c.2.speaks name = false) ∨
        (op = .entity (.speech true) ∧
          ∃ name ∈ c.1.voices.speaker, c.2.hasEntity name = true ∧ c.2.speaks name = false))

section

variable {load : String → Reported Scene}

theorem mouths_perform (f : Frame) (now : Nat) (op : Operation) (voices : Voices) (w : World) :
    let r := f.perform (World.stage load) now op voices w
    Mouths voices (w.hasEntity ·) f.justEntered op r.flow w.speaking r.state.speaking := by
  intro r
  obtain ⟨said, hsaid, hr⟩ : ∃ said : World, said.entities = w.entities ∧
      r = execute (World.stage load) f.event f.cursor op now f.justEntered f.progress voices said :=
    ⟨(World.stage load).say .trace _ w, rfl, rfl⟩
  have hhas : (said.hasEntity ·) = (w.hasEntity ·) :=
    funext fun name => World.hasEntity_of_entities hsaid name
  rw [hr, ← hhas, ← World.speaking_of_entities hsaid]
  exact mouths_execute f.event f.cursor op now f.justEntered f.progress said

end

/-- What makes an execution leave more open mouths than texts: there were as many before, and a
text ends while the speaker's mouth is closed, or a cue opens a mouth. -/
theorem Mouths.card_le_iff {voices : Voices} {has : String → Bool} {entering : Bool}
    {op : Operation} {flow : Flow} {m m' : Finset String}
    (h : Mouths voices has entering op flow m m') {below : ℕ}
    (hle : m.card ≤ below + if (!entering && op.isSay) = true then 1 else 0) :
    (m'.card ≤ below + if (flow.suspends && op.isSay) = true then 1 else 0) ↔
      ¬(m.card = below + (if (!entering && op.isSay) = true then 1 else 0) ∧
        ((op.isSay = true ∧ entering = false ∧ flow = .next ∧ ∀ name ∈ voices.speaker, name ∉ m) ∨
          (op = .entity (.speech true) ∧
            ∃ name ∈ voices.speaker, has name = true ∧ name ∉ m))) := by
  cases h with
  | tacit hop =>
      cases op with
      | say | entity | sceneLoad => exact absurd hop Bool.false_ne_true
      | _ => simpa [Operation.isSay] using hle
  | @begins say p m m' hentering hopened =>
      rw [hentering] at hle ⊢
      have hle : m.card ≤ below := hle
      have hcard : m'.card ≤ m.card + 1 := by
        rcases hopened with rfl | ⟨name, -, rfl⟩
        · exact Nat.le_succ _
        · exact Finset.card_insert_le _ _
      refine iff_of_true ?_ (by simp)
      show m'.card ≤ below + 1
      omega
  | goesOn hentering =>
      rw [hentering] at hle ⊢
      exact iff_of_true hle (by simp)
  | ends =>
      show (voices.hush m).card ≤ below ↔ _
      cases entering with
      | true => exact iff_of_true (Voices.card_hush_le.trans hle) (by simp)
      | false =>
          rw [Voices.card_hush_le_iff hle]
          simp [Operation.isSay]
  | @opens name m hspeaker hhas =>
      have hle : m.card ≤ below := by simpa [Operation.isSay] using hle
      show (insert name m).card ≤ below ↔ _
      rw [card_insert_le_iff hle]
      refine not_congr (and_congr (by simp [Operation.isSay]) ?_)
      constructor
      · exact fun hname => .inr ⟨rfl, name, hspeaker, hhas, hname⟩
      · rintro (⟨hop, -⟩ | ⟨-, name', hspeaker', -, hname'⟩)
        · cases hop
        · obtain rfl := Option.some.inj (hspeaker.symm.trans hspeaker')
          exact hname'
  | closes =>
      refine iff_of_true ?_ (by simp [Operation.isSay])
      exact Voices.card_hush_le.trans (by simpa [Operation.isSay] using hle)
  | cues hcue =>
      refine iff_of_true (by simpa [Operation.isSay] using hle) ?_
      rintro ⟨-, ⟨hop, -⟩ | ⟨hop, name, hspeaker, hhas, -⟩⟩
      · cases hop
      · rw [hcue (Operation.entity.inj hop) name hspeaker] at hhas
        cases hhas
  | leaves hleft =>
      refine iff_of_true ?_ (by simp [Operation.isSay])
      rcases hleft with rfl | rfl
      · simpa [Operation.isSay] using hle
      · exact Nat.zero_le _

section

variable {load : String → Reported Scene}

/-- If at most as many mouths are open as texts are under way, this stays so in a turn, unless the
turn leaves a mouth open. -/
theorem mouthsMatched_turn_iff (now : Nat) {c : Tracker × World} (h : MouthsMatched c) :
    MouthsMatched (Tracker.turn (World.stage load) now c.1 c.2).left ↔
      ¬StrandsMouth load now c := by
  obtain ⟨⟨fs, voices⟩, w⟩ := c
  cases hsettle : Tracker.settle fs with
  | nil =>
      have htexts : Tracker.texts fs = 0 := by
        rw [← Tracker.texts_settle, hsettle]
        rfl
      rw [Tracker.turn_idle hsettle]
      refine iff_of_true ?_ ?_
      · have hle : w.speaking.card ≤ Tracker.texts fs := h
        rw [htexts] at hle
        exact hle
      · rintro ⟨-, f, below, op, hcons, -⟩
        cases hsettle.symm.trans hcons
  | cons f below =>
      obtain ⟨op, hop, hturn, hleaves⟩ := Tracker.exists_left (World.stage load) now
        (show Tracker.settle (Tracker.frames ⟨fs, voices⟩) = f :: below from hsettle) w
      have hfree : f.awaitingChild = false := (Tracker.settled hsettle).1
      have hbefore : Tracker.texts fs =
          Tracker.texts below + if (!f.justEntered && op.isSay) = true then 1 else 0 := by
        rw [← Tracker.texts_settle, hsettle, Tracker.texts, List.countP_cons,
          Tracker.isTyping_of_operation hfree hop, Tracker.texts]
      set r := f.perform (World.stage load) now op voices w
      have hmouths : Mouths voices (w.hasEntity ·) f.justEntered op r.flow w.speaking
          r.state.speaking := mouths_perform f now op voices w
      have hle : w.speaking.card ≤ Tracker.texts fs := h
      have hleft : (Tracker.turn (World.stage load) now ⟨fs, voices⟩ w).left.2.speaking =
          r.state.speaking := hleaves.value_eq fun _ _ => rfl
      have hafter : Tracker.texts
          (Tracker.turn (World.stage load) now ⟨fs, voices⟩ w).left.1.frames =
            Tracker.texts below + if (r.flow.suspends && op.isSay) = true then 1 else 0 := by
        rw [hturn, Tracker.texts_follow hfree hop]
      have hiff := hmouths.card_le_iff (hbefore ▸ hle)
      show (Tracker.turn (World.stage load) now ⟨fs, voices⟩ w).left.2.speaking.card ≤ _ ↔ _
      rw [hleft, hafter, hiff, ← hbefore, not_iff_not]
      simp only [World.notMem_speaking]
      constructor
      · rintro ⟨heq, hstrands⟩
        exact ⟨heq, f, below, op, hsettle, hop, hstrands⟩
      · rintro ⟨heq, f', below', op', hsettle', hop', hstrands⟩
        obtain ⟨rfl, -⟩ := List.cons.inj (hsettle.symm.trans hsettle')
        obtain rfl := Option.some.inj (hop.symm.trans hop')
        exact ⟨heq, hstrands⟩

end

/-! ## Sessions -/

namespace MouthsMatched

variable {c c' : Tracker × World}

theorem of_entities {t : Tracker} {w w' : World} (h : MouthsMatched (t, w))
    (hentities : w'.entities = w.entities) : MouthsMatched (t, w') := by
  show w'.speaking.card ≤ _
  rw [World.speaking_of_entities hentities]
  exact h

/-- What is done apart from the turns of a tick touches no mouth and ends no text. -/
theorem aside (haside : Aside c c') (h : MouthsMatched c) : MouthsMatched c' := by
  cases haside with
  | @calls e w he hfree hworld =>
      obtain ⟨_, _, _, _, _, rfl⟩ := hworld
      show c.2.speaking.card ≤ Tracker.texts (.start e :: c.1.frames)
      rw [Tracker.texts, List.countP_cons]
      exact Nat.le_add_right_of_le h
  | stirs hworld =>
      obtain ⟨_, _, _, _, _, rfl⟩ := hworld
      exact h

/-- A scene begins with all mouths closed. -/
theorem ofScene (scene : Scene) : MouthsMatched (.empty, World.ofScene scene) := by
  have hclosed : (World.ofScene scene).speaking = ∅ := World.speaking_enter scene none .blank
  show (World.ofScene scene).speaking.card ≤ _
  rw [hclosed]
  exact Nat.zero_le _

/-- With nothing left to run, no mouth is open exactly if all are matched. -/
theorem iff_of_nil {t : Tracker} (ht : t.frames = []) (w : World) :
    MouthsMatched (t, w) ↔ w.speaking = ∅ := by
  show w.speaking.card ≤ Tracker.texts t.frames ↔ _
  rw [ht, ← Finset.card_eq_zero]
  exact Nat.le_zero

end MouthsMatched

namespace Session

section

variable [Interpreter] {sources : Sources} {s : Session} {t : Tracker} {w : World}

theorem entities_frame {status : TickStatus} (h : Returns sources s (status, t, w)) :
    (frame sources s).world.entities = w.entities := by
  rw [frame_eq h]
  have hrest : ∀ s : Session, (((s.followScene sources).runScripts sources).answerCalls
      sources).endFrame.world.entities = s.world.entities := by
    intro s
    refine (asides_rest sources s).invariant (I := fun c => c.2.entities = s.world.entities) ?_ rfl
    intro c c' haside hc
    cases haside with
    | calls _ _ hworld =>
        obtain ⟨_, _, _, _, _, rfl⟩ := hworld
        exact hc
    | stirs hworld =>
        obtain ⟨_, _, _, _, _, rfl⟩ := hworld
        exact hc
  refine (hrest _).trans ?_
  unfold closeIdleBox
  split
  · exact w.entities_flushDialog
  · rfl

theorem PlayedWith.mouthsMatched
    (hs : PlayedWith sources (fun now c => ¬StrandsMouth sources.scene now c) s) :
    MouthsMatched s.moment :=
  hs.invariant_moment .ofScene (fun _ _ => .aside)
    (fun now _ hheld h => (mouthsMatched_turn_iff now h).2 hheld)
    fun _ w _ h => h.of_entities w.entities_flushDialog

/-- If at most as many mouths are open as texts are under way, this stays so in a turn, unless a
text ends while the speaker's mouth is closed or a cue opens a mouth without a text. After a frame
at whose end nothing is left to run, no mouth is open exactly if this was so after the tick. So if
no turn of a session leaves a mouth open, then after every such frame every mouth is closed. -/
theorem hushed_when_idle (sources : Sources) :
    (∀ (now : Nat) (c : Tracker × World), MouthsMatched c →
      (MouthsMatched (Tracker.turn (stage sources) now c.1 c.2).left ↔
        ¬StrandsMouth sources.scene now c)) ∧
    (∀ s t w, Returns sources s (.idle, t, w) →
      ((frame sources s).world.speaking = ∅ ↔ MouthsMatched (t, w))) ∧
    ∀ s t w, PlayedWith sources (fun now c => ¬StrandsMouth sources.scene now c) s →
      Returns sources s (.idle, t, w) →
      (∀ c, Relation.ReflTransGen (Tracker.Goes (stage sources) (beginFrame sources s).now)
        (beginFrame sources s).moment c →
          ¬StrandsMouth sources.scene (beginFrame sources s).now c) →
      (frame sources s).world.speaking = ∅ := by
  have hidle : ∀ s t w, Returns sources s (.idle, t, w) →
      ((frame sources s).world.speaking = ∅ ↔ MouthsMatched (t, w)) := by
    intro s t w hreturns
    rw [World.speaking_of_entities (entities_frame hreturns)]
    exact (MouthsMatched.iff_of_nil (hreturns.frames_eq_nil rfl) w).symm
  refine ⟨fun now c h => mouthsMatched_turn_iff now h, hidle, ?_⟩
  intro s t w hs hreturns hmoments
  have hticked : MouthsMatched (t, w) :=
    hreturns.keeps_moment (I := MouthsMatched) (fun _ _ => .aside)
      (fun now _ hheld h => (mouthsMatched_turn_iff now h).2 hheld) hmoments hs.mouthsMatched
  exact (hidle s t w hreturns).2 hticked

end

/-- A hall in which a cat says something, one character in a frame. -/
def chattering : Scene :=
  { scenery [.entity (.speaker (some "cat")), .say ⟨"Hi", none, 0, false⟩] with
    entities := [("cat", .origin)] }

/-- The chattering cat in every file. -/
def chatteringSources : Sources where
  scene _ := ([], .ok chattering)
  script _ := .error .notFound

/-- The cat's mouth is open after the first frame and closed after the second. -/
theorem hushed_when_idle_chattering :
    ∃ s t w, PlayedWith chatteringSources
        (fun now c => ¬StrandsMouth chatteringSources.scene now c) s ∧
      s.world.speaking = {"cat"} ∧ Returns chatteringSources s (.idle, t, w) ∧
      MouthsMatched (t, w) ∧
      (let c := (beginFrame chatteringSources s).moment
      MouthsMatched c ∧ MouthsMatched
        (Tracker.turn (stage chatteringSources) (beginFrame chatteringSources s).now c.1 c.2).left) ∧
      (frame chatteringSources s).world.speaking = ∅ := by
  have hplay : ∃ s₀ t₁ w₁ t₀ w₀ s t₂ w₂ t w,
      load chatteringSources .standard "scene.json" = ([], .ok s₀) ∧
      MouthsMatched (beginFrame chatteringSources s₀).moment ∧
      Tracker.turn (stage chatteringSources) (beginFrame chatteringSources s₀).now
        (beginFrame chatteringSources s₀).tracker (beginFrame chatteringSources s₀).world =
          .more t₁ w₁ ∧
      MouthsMatched (t₁, w₁) ∧
      Tracker.turn (stage chatteringSources) (beginFrame chatteringSources s₀).now t₁ w₁ =
        .ended .suspended t₀ w₀ ∧
      MouthsMatched (t₀, w₀) ∧
      finishFrame chatteringSources .suspended
        { beginFrame chatteringSources s₀ with tracker := t₀, world := w₀ } = s ∧
      s.world.speaking = {"cat"} ∧
      Tracker.turn (stage chatteringSources) (beginFrame chatteringSources s).now
        (beginFrame chatteringSources s).tracker (beginFrame chatteringSources s).world =
          .more t₂ w₂ ∧
      MouthsMatched (t₂, w₂) ∧
      Tracker.turn (stage chatteringSources) (beginFrame chatteringSources s).now t₂ w₂ =
        .ended .idle t w ∧
      MouthsMatched (t, w) :=
    ⟨_, _, _, _, _, _, _, _, _, _, rfl, by decide, rfl, by decide, rfl, by decide, rfl, rfl, rfl,
      by decide, rfl, by decide⟩
  obtain ⟨s₀, t₁, w₁, t₀, w₀, s, t₂, w₂, t, w, hload, hbegun₀, hgo₀, hmatched₁, hturn₀, hmatched₀,
    hframe, hspeaking, hgo, hmatched₂, hturn, hmatched⟩ := hplay
  have hheld : ∀ {now : Nat} {c c' : Tracker × World}, MouthsMatched c → MouthsMatched c' →
      (Tracker.turn (stage chatteringSources) now c.1 c.2).left = c' →
        ¬StrandsMouth chatteringSources.scene now c := by
    rintro now c c' h h' rfl
    exact (mouthsMatched_turn_iff now h).1 h'
  have hreturns₀ : Returns chatteringSources s₀ (.suspended, t₀, w₀) := .more hgo₀ (.ended hturn₀)
  have hreturns : Returns chatteringSources s (.idle, t, w) := .more hgo (.ended hturn)
  have hs : PlayedWith chatteringSources
      (fun now c => ¬StrandsMouth chatteringSources.scene now c) s := by
    rw [← hframe, ← frame_eq hreturns₀]
    refine .frame (.loaded hload) hreturns₀ fun c hpath => ?_
    rcases Tracker.eq_or_path_of_more hgo₀ hpath with rfl | hrest
    · exact hheld hbegun₀ hmatched₁ (congrArg Tracker.Turn.left hgo₀)
    · rw [Tracker.eq_of_path_of_ended hturn₀ hrest]
      exact hheld hmatched₁ hmatched₀ (congrArg Tracker.Turn.left hturn₀)
  have hbegun : MouthsMatched (beginFrame chatteringSources s).moment :=
    (asides_beginFrame chatteringSources s).invariant (fun _ _ => .aside) hs.mouthsMatched
  obtain ⟨hturns, hframes, hplayed⟩ := hushed_when_idle chatteringSources
  have hclosed : (frame chatteringSources s).world.speaking = ∅ := by
    refine hplayed s t w hs hreturns fun c hpath => ?_
    rcases Tracker.eq_or_path_of_more hgo hpath with rfl | hrest
    · exact hheld hbegun hmatched₂ (congrArg Tracker.Turn.left hgo)
    · rw [Tracker.eq_of_path_of_ended hturn hrest]
      exact hheld hmatched₂ hmatched (congrArg Tracker.Turn.left hturn)
  refine ⟨s, t, w, hs, hspeaking, hreturns, (hframes s t w hreturns).1 hclosed, ⟨hbegun, ?_⟩,
    hclosed⟩
  exact (hturns _ _ hbegun).2 (hheld hbegun hmatched₂ (congrArg Tracker.Turn.left hgo))

/-! ## A speaker who leaves -/

/-- The chattering cat, while the script of the scene calls an event in which nobody speaks any
more. -/
def leavingSources : Sources where
  scene _ := ([], .ok { chattering with
    events := chattering.events ++ [("leave", [.entity (.speaker none)])]
    script := some "scene.script" })
  script _ := .ok (some ⟨[], [.call "call_event" [.text "leave".toUTF8]]⟩)

/-- The cat stops being the speaker after the first character. When its text has ended and nothing
is left to run, its mouth is still open. -/
theorem mouth_open_behind_leave :
    ∃ s t w, Played leavingSources s ∧ Returns leavingSources s (.idle, t, w) ∧
      (frame leavingSources s).world.speaks "cat" = true := by
  have hplay : ∃ s₀ t₀ w₀ scripts s t w, load leavingSources .standard "scene.json" = ([], .ok s₀) ∧
      Returns leavingSources s₀ (.suspended, t₀, w₀) ∧
      (let arrived := followScene leavingSources (closeIdleBox .suspended
        { beginFrame leavingSources s₀ with tracker := t₀, world := w₀ })
      arrived.scripts = some scripts ∧ scripts.scheduler.threads = [] ∧ scripts.entry = none ∧
        endFrame (answerCalls leavingSources arrived) = s) ∧
      Returns leavingSources s (.idle, t, w) ∧ w.speaks "cat" = true :=
    ⟨_, _, _, _, _, _, _, rfl, .more rfl (.ended rfl), ⟨rfl, rfl, rfl, rfl⟩,
      .more rfl (.more rfl (.ended rfl)), rfl⟩
  obtain ⟨s₀, t₀, w₀, scripts, s, t, w, hload, hreturns₀, ⟨hscripts, hthreads, hentry, hs⟩,
    hreturns, hspeaks⟩ := hplay
  have hplayed : Played leavingSources s := by
    have hframe := frame_eq hreturns₀
    rw [finishFrame, runScripts_of_no_threads _ hscripts hthreads hentry, hs] at hframe
    rw [← hframe]
    exact .frame (.loaded hload) hreturns₀ fun _ _ => trivial
  refine ⟨s, t, w, hplayed, hreturns, ?_⟩
  rw [World.speaks, entities_frame hreturns]
  exact hspeaks

end Session

end Cutscene
