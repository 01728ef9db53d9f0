import Mathlib.Data.String.Basic
import Mathlib.Order.Bounds.Basic
import Mathlib.Tactic.IntervalCases
import Cutscene.Proofs.Stage.Hosts
import Cutscene.Proofs.Tracker.Patience
import Cutscene.Proofs.Tracker.Stints

/-!
# Texts that are typed out

A text is typed out in `chunks`: one character, or a blank with the character after it. Each turn
of its stint shows one chunk at most. It keeps a number of bytes; that these are the bytes of the
chunks shown so far is the invariant of the stint (`Typing`), from which everything else follows.
-/

namespace Cutscene

/-! ## Chunks -/

/-- The chunks of a text, each as long as it can be: a blank goes with the character after it, if
there is one, and any other character goes alone. -/
def chunks : List Char → List (List Char)
  | [] => []
  | [c] => [[c]]
  | c :: d :: rest =>
    if Text.isBlank c then [c, d] :: chunks rest else [c] :: chunks (d :: rest)

theorem chunks_append_of_chunk {cs left : List Char} (hcs : cs ≠ []) (h : chunk cs ++ left = cs) :
    chunks cs = chunk cs :: chunks left := by
  match cs, h with
  | [c], h =>
      obtain rfl : left = [] := by simpa [chunk] using h
      rfl
  | c :: d :: rest, h =>
      cases hblank : Text.isBlank c with
      | true =>
          obtain rfl : left = rest := by simpa [chunk, hblank] using h
          simp [chunks, chunk, hblank]
      | false =>
          obtain rfl : left = d :: rest := by simpa [chunk, hblank] using h
          simp [chunks, chunk, hblank]

/-- The chunks of a text, one after the other, are the text. -/
theorem flatten_chunks (cs : List Char) : (chunks cs).flatten = cs := by
  fun_induction chunks cs with
  | case1 => rfl
  | case2 c => rfl
  | case3 c d rest hblank ih => simp [ih]
  | case4 c d rest hblank ih => simp [ih]

theorem chunks_ne_nil {cs : List Char} (h : cs ≠ []) : chunks cs ≠ [] := by
  intro hnil
  rw [← flatten_chunks cs, hnil] at h
  exact h rfl

theorem chunks_eq_nil_iff {cs : List Char} : chunks cs = [] ↔ cs = [] :=
  ⟨fun h => not_not.1 fun hne => chunks_ne_nil hne h, fun h => by rw [h]; rfl⟩

/-- The chunk that a text shows next, if one is due. -/
def Say.dueChunks (say : Say) (now : ℕ) (last : Option ℕ) (rest : List Char) : List (List Char) :=
  if say.due now last rest = [] then [] else [say.due now last rest]

theorem Say.dueChunks_eq_nil_iff {say : Say} {now : ℕ} {last : Option ℕ} {rest : List Char} :
    say.dueChunks now last rest = [] ↔ say.due now last rest = [] := by
  unfold dueChunks
  split
  · rename_i hdue
    exact iff_of_true rfl hdue
  · rename_i hdue
    exact iff_of_false (List.cons_ne_nil _ _) hdue

theorem Say.flatten_dueChunks (say : Say) (now : ℕ) (last : Option ℕ) (rest : List Char) :
    (say.dueChunks now last rest).flatten = say.due now last rest := by
  unfold dueChunks
  split
  · rename_i hdue
    exact hdue.symm
  · exact List.flatten_singleton

/-- What a text shows goes on with the chunks of what is left. -/
theorem Say.chunks_eq_of_due {say : Say} {now : ℕ} {last : Option ℕ} {rest left : List Char}
    (h : say.due now last rest ++ left = rest) :
    chunks rest = say.dueChunks now last rest ++ chunks left := by
  unfold dueChunks
  by_cases hdue : say.due now last rest = []
  · rw [if_pos hdue, List.nil_append, ← h, hdue, List.nil_append]
  · obtain ⟨hdue', hrest⟩ := due_ne_nil_iff.1 hdue
    have hchunk : say.due now last rest = chunk rest := if_pos hdue'
    rw [if_neg hdue, List.singleton_append, hchunk, chunks_append_of_chunk hrest (hchunk ▸ h)]

/-- The chunks of a text as the texts that are appended one after the other. -/
def Say.pieces (say : Say) : List String := (chunks say.text.toList).map String.ofList

theorem join_map_ofList (css : List (List Char)) :
    String.join (css.map String.ofList) = String.ofList css.flatten := by
  rw [← String.toList_inj, String.toList_join, String.toList_ofList, List.flatMap_map]
  simp [List.flatMap_id']

/-- The pieces of a text, one after the other, are the text. -/
theorem Say.join_pieces (say : Say) : String.join say.pieces = say.text := by
  rw [pieces, join_map_ofList, flatten_chunks, String.ofList_toList]

/-! ## What a turn types -/

/-- The text that a request appends. -/
def StageCall.appended? : StageCall → Option String
  | appendText text => some text
  | _ => none

namespace Tracker

variable {σ : Type} (stage : Stage σ) (now : ℕ)

/-- The texts that a turn appends. -/
def typed (c : Tracker × σ) : List String := (asked stage now c).filterMap StageCall.appended?

/-- How often a turn lets a click sound. -/
def clicked (c : Tracker × σ) : ℕ := (asked stage now c).count .dialogClick

end Tracker

namespace Frame

/-- The frame is in a text of which some characters are shown, the last of them at some time: it
enters the text, or it has kept both. -/
inductive Types (f : Frame) : List Char → Option ℕ → Prop
  | enters (h : f.justEntered = true) : Types f [] none
  | goesOn {shown : List Char} {last : Option ℕ} (h : f.justEntered = false)
      (hkept : f.progress = .say (byteSize shown) shown.length last) : Types f shown last

end Frame

section

variable {σ : Type} {stage : Stage σ}

/-- What has been asked of a stage as far as texts are concerned: those that were appended, and how
often a click was to sound. -/
def told (x : σ × List StageCall) : List String × ℕ :=
  (x.2.filterMap StageCall.appended?, x.2.count .dialogClick)

@[simp] theorem told_showExpression (expression : Option String) (x : σ × List StageCall) :
    told (stage.recorded.showExpression expression x) = told x := by
  simp [told, Stage.recorded, StageCall.appended?]

@[simp] theorem told_entityCue (entity : String) (cue : Cue) (x : σ × List StageCall) :
    told (stage.recorded.entityCue entity cue x) = told x := by
  simp [told, Stage.recorded, StageCall.appended?]

@[simp] theorem told_openBox (x : σ × List StageCall) :
    told (stage.recorded.openBox x) = told x := by
  simp [told, Stage.recorded, StageCall.appended?]

@[simp] theorem told_setText (text : String) (x : σ × List StageCall) :
    told (stage.recorded.setText text x) = told x := by
  simp [told, Stage.recorded, StageCall.appended?]

@[simp] theorem told_appendText (text : String) (x : σ × List StageCall) :
    told (stage.recorded.appendText text x) = ((told x).1 ++ [text], (told x).2) := by
  simp [told, Stage.recorded, StageCall.appended?]

@[simp] theorem told_dialogClick (x : σ × List StageCall) :
    told (stage.recorded.dialogClick x) = ((told x).1, (told x).2 + 1) := by
  simp [told, Stage.recorded, StageCall.appended?]

theorem told_beginSay (say : Say) (voices : Voices) (x : σ × List StageCall) :
    told (beginSay stage.recorded say voices x) = told x := by
  unfold beginSay
  cases voices.speaker with
  | none => simp [apply_ite told]
  | some speaker => simp [apply_ite told]

theorem told_endSpeech (voices : Voices) (x : σ × List StageCall) :
    told (endSpeech stage.recorded voices x) = told x := by
  unfold endSpeech cueSpeaker
  cases voices.speaker with
  | none => rfl
  | some speaker => exact told_entityCue speaker _ x

/-! ## One turn of a text -/

namespace Frame.Types

variable {f : Frame} {below : List Frame} {say : Say} {shown rest : List Char} {last : Option ℕ}

/-- A text that is typed out goes on where it was. If it is entered, it begins first. -/
theorem sayStep_eq (h : f.Types shown last) (hpace : 0 ≤ say.intervalMs) (stage : Stage σ)
    (now : ℕ) (voices : Voices) (s : σ) :
    sayStep stage say voices now f.justEntered f.progress s =
      typeOut stage say voices now (byteSize shown) shown.length last
        (if f.justEntered then beginSay stage say voices s else s) := by
  unfold sayStep
  rw [if_neg (Int64.not_lt.2 hpace)]
  cases h with
  | enters hentered =>
      rw [hentered]
      rfl
  | goesOn hentered hkept =>
      rw [hentered, hkept]

theorem exists_typeOut (h : f.Types shown last) (hpace : 0 ≤ say.intervalMs) (stage : Stage σ)
    (now : ℕ) (voices : Voices) (s : σ) :
    ∃ line, f.perform stage now (.say say) voices s = .plain voices
      (typeOut stage say voices now (byteSize shown) shown.length last
        (if f.justEntered then beginSay stage say voices (stage.note line s)
        else stage.note line s)) :=
  ⟨_, congrArg (Effect.plain voices) (h.sayStep_eq hpace stage now voices _)⟩

/-- What a turn types, and whether a click sounds: the chunk that is due, and a click with it if the
number of characters that are shown is even. -/
theorem told_eq (h : f.Types shown last) (hpace : 0 ≤ say.intervalMs)
    (htext : say.text.toList = shown ++ rest) (stage : Stage σ) (now : ℕ) {c : Tracker × σ}
    (hsettle : Tracker.settle c.1.frames = f :: below) (hop : f.operation? = some (.say say)) :
    let due := say.due now last rest
    Tracker.typed stage now c = (say.dueChunks now last rest).map String.ofList ∧
      Tracker.clicked stage now c =
        if due ≠ [] ∧ shown.length % dialogClickInterval = 0 then 1 else 0 := by
  intro due
  obtain ⟨line, hperform⟩ := h.exists_typeOut hpace stage.recorded now c.1.voices (c.2, [])
  -- beginning a text appends nothing and lets no click sound
  have hbegun : told (if f.justEntered then
      beginSay stage.recorded say c.1.voices (stage.recorded.note line (c.2, []))
        else stage.recorded.note line (c.2, [])) = ([], 0) := by
    rw [apply_ite told, told_beginSay, ite_self]
    rfl
  have hasked : (Tracker.typed stage now c, Tracker.clicked stage now c) =
      told (f.perform stage.recorded now (.say say) c.1.voices (c.2, [])).state := by
    unfold Tracker.typed Tracker.clicked
    rw [Tracker.asked_of_active hsettle hop]
    rfl
  refine Prod.mk.inj (hasked.trans ?_)
  generalize (if f.justEntered then
      beginSay stage.recorded say c.1.voices (stage.recorded.note line (c.2, []))
        else stage.recorded.note line (c.2, [])) = x at hperform hbegun
  rw [hperform, Effect.state_plain, typeOut_eq htext]
  simp only [apply_ite Prod.snd, apply_ite told, told_endSpeech, ite_self, told_appendText,
    told_dialogClick, hbegun]
  by_cases hdue : due = []
  · simp [due, hdue, Say.dueChunks]
  · by_cases heven : shown.length % dialogClickInterval = 0
    · simp [due, hdue, heven, Say.dueChunks]
    · simp [due, hdue, heven, Say.dueChunks]

/-- A turn begins the text if it is entered and shows what is due. Then it ends the text or suspends
it, with what it keeps of it. -/
theorem turn_eq (h : f.Types shown last) (hpace : 0 ≤ say.intervalMs)
    (htext : say.text.toList = shown ++ rest) (stage : Stage σ) (now : ℕ) {c : Tracker × σ}
    (hsettle : Tracker.settle c.1.frames = f :: below) (hop : f.operation? = some (.say say)) :
    let due := say.due now last rest
    ∃ line begun s,
      begun = (if f.justEntered then beginSay stage say c.1.voices (stage.note line c.2)
        else stage.note line c.2) ∧
      s = (if due = [] then begun else stage.appendText (String.ofList due)
        (if shown.length % dialogClickInterval = 0 then stage.dialogClick begun else begun)) ∧
      Tracker.turn stage now c.1 c.2 =
        if due = rest then .more ⟨f.advance :: below, c.1.voices⟩ (endSpeech stage c.1.voices s)
        else .ended .suspended ⟨f.suspend (.say (byteSize (shown ++ due)) (shown ++ due).length
          (if due = [] then last else some now)) :: below, c.1.voices⟩ s := by
  intro due
  obtain ⟨line, hperform⟩ := h.exists_typeOut hpace stage now c.1.voices c.2
  refine ⟨line, _, _, rfl, rfl, ?_⟩
  rw [Tracker.turn_eq_follow hsettle hop, hperform, typeOut_eq htext, List.length_append]
  by_cases hend : due = rest
  · simp only [due, if_pos hend]
    rfl
  · simp only [due, if_neg hend]
    rfl

end Frame.Types

/-! ## The turns of a text -/

namespace Tracker

/-- What the turns before `i` append. -/
def typedBefore (stage : Stage σ) (time : ℕ → ℕ) (place : ℕ → Tracker × σ) (i : ℕ) : List String :=
  (List.range i).flatMap fun j => typed stage (time j) (place j)

/-- The turns before `i` that append something. -/
def showing (stage : Stage σ) (time : ℕ → ℕ) (place : ℕ → Tracker × σ) (i : ℕ) : Set ℕ :=
  {j | j < i ∧ typed stage (time j) (place j) ≠ []}

/-- What is shown of a text when its turn `i` begins: some chunks, each of them by one of the turns
before. Unless the turn enters the text, something is shown and something is left. -/
structure Typing (stage : Stage σ) (say : Say) (time : ℕ → ℕ) (place : ℕ → Tracker × σ) (i : ℕ)
    (f : Frame) (done : List (List Char)) (rest : List Char) (last : Option ℕ) : Prop where
  types : f.Types done.flatten last
  text : say.text.toList = done.flatten ++ rest
  whole : chunks say.text.toList = done ++ chunks rest
  shown : typedBefore stage time place i = done.map String.ofList
  recent : i = 0 ∧ last = none ∨
    rest ≠ [] ∧ ∃ j, IsGreatest (showing stage time place i) j ∧ last = some (time j)

variable {meanwhile : Tracker × σ → Tracker × σ → Prop} {time : ℕ → ℕ} {place : ℕ → Tracker × σ}
  {n i : ℕ} {say : Say} {f : Frame} {below : List Frame} {done : List (List Char)}
  {rest : List Char} {last : Option ℕ}

theorem typedBefore_succ (stage : Stage σ) (time : ℕ → ℕ) (place : ℕ → Tracker × σ) (i : ℕ) :
    typedBefore stage time place (i + 1) =
      typedBefore stage time place i ++ typed stage (time i) (place i) := by
  rw [typedBefore, List.range_succ, List.flatMap_append, List.flatMap_singleton]
  rfl

theorem showing_succ_of_typed_eq_nil (h : typed stage (time i) (place i) = []) :
    showing stage time place (i + 1) = showing stage time place i := by
  ext j
  constructor
  · rintro ⟨hj, htyped⟩
    refine ⟨Nat.lt_of_le_of_ne (Nat.le_of_lt_succ hj) ?_, htyped⟩
    rintro rfl
    exact htyped h
  · exact fun hj => ⟨Nat.lt_succ_of_lt hj.1, hj.2⟩

theorem isGreatest_showing_succ (h : typed stage (time i) (place i) ≠ []) :
    IsGreatest (showing stage time place (i + 1)) i :=
  ⟨⟨Nat.lt_succ_self i, h⟩, fun _ hj => Nat.le_of_lt_succ hj.1⟩

/-- After a turn of a text more of its chunks are shown, at most one. The text is done when nothing
is left; else its frame keeps how many bytes and characters are shown. -/
theorem Typing.exists_after (h : Typing stage say time place i f done rest last)
    (hpace : 0 ≤ say.intervalMs) (hsettle : settle (place i).1.frames = f :: below)
    (hop : f.operation? = some (.say say)) :
    let done' := done ++ say.dueChunks (time i) last rest
    ∃ left s, say.due (time i) last rest ++ left = rest ∧
      typedBefore stage time place (i + 1) = done'.map String.ofList ∧
      chunks say.text.toList = done' ++ chunks left ∧ say.text.toList = done'.flatten ++ left ∧
      turn stage (time i) (place i).1 (place i).2 =
        if left = [] then .more ⟨f.advance :: below, (place i).1.voices⟩ s
        else .ended .suspended ⟨f.suspend (.say (byteSize done'.flatten) done'.flatten.length
          (if say.due (time i) last rest = [] then last else some (time i))) :: below,
          (place i).1.voices⟩ s := by
  intro done'
  obtain ⟨htyped, -⟩ := h.types.told_eq hpace h.text stage (time i) hsettle hop
  obtain ⟨-, -, s, -, -, hturn⟩ := h.types.turn_eq hpace h.text stage (time i) hsettle hop
  obtain ⟨left, hleft⟩ := say.due_isPrefix (time i) last rest
  have hflat : done'.flatten = done.flatten ++ say.due (time i) last rest := by
    rw [List.flatten_append, Say.flatten_dueChunks]
  have hend : say.due (time i) last rest = say.due (time i) last rest ++ left ↔ left = [] :=
    List.self_eq_append_right
  rw [hleft] at hend
  have hshown : typedBefore stage time place (i + 1) = done'.map String.ofList := by
    rw [typedBefore_succ, h.shown, htyped, List.map_append]
  have hwhole : Cutscene.chunks say.text.toList = done' ++ chunks left := by
    rw [h.whole, Say.chunks_eq_of_due hleft, List.append_assoc]
  have htext : say.text.toList = done'.flatten ++ left := by
    rw [hflat, List.append_assoc, hleft, h.text]
  rw [← hflat] at hturn
  by_cases hdone : left = []
  · rw [if_pos (hend.2 hdone)] at hturn
    exact ⟨left, _, hleft, hshown, hwhole, htext, hturn.trans (if_pos hdone).symm⟩
  · rw [if_neg (mt hend.1 hdone)] at hturn
    exact ⟨left, s, hleft, hshown, hwhole, htext, hturn.trans (if_neg hdone).symm⟩

/-- If a turn leaves something of a text, some turn was the last so far to show something of it. -/
theorem Typing.exists_recent (h : Typing stage say time place i f done rest last)
    (htyped : typed stage (time i) (place i) =
      (say.dueChunks (time i) last rest).map String.ofList) {left : List Char}
    (hleft : say.due (time i) last rest ++ left = rest) (hmore : left ≠ []) :
    ∃ j, IsGreatest (showing stage time place (i + 1)) j ∧
      (if say.due (time i) last rest = [] then last else some (time i)) = some (time j) := by
  have hquiet : typed stage (time i) (place i) = [] ↔ say.due (time i) last rest = [] := by
    rw [htyped, List.map_eq_nil_iff, Say.dueChunks_eq_nil_iff]
  by_cases hdue : say.due (time i) last rest = []
  · rw [if_pos hdue, showing_succ_of_typed_eq_nil (hquiet.2 hdue)]
    rcases h.recent with ⟨-, rfl⟩ | ⟨-, hlast⟩
    · -- a text that is entered shows something, unless it is empty
      rw [hdue, List.nil_append] at hleft
      exact absurd hdue (Say.due_ne_nil_iff.2 ⟨rfl, hleft ▸ hmore⟩)
    · exact hlast
  · rw [if_neg hdue]
    exact ⟨i, isGreatest_showing_succ (mt hquiet.1 hdue), rfl⟩

/-- At each turn of a text some chunks of it are shown. -/
theorem Stint.exists_typing (h : Stint stage meanwhile (.say say) time place n)
    (hpace : 0 ≤ say.intervalMs) (hi : i ≤ n) :
    ∃ f below done rest last, settle (place i).1.frames = f :: below ∧
      f.operation? = some (.say say) ∧ Typing stage say time place i f done rest last := by
  induction i with
  | zero =>
      obtain ⟨f, below, hsettle, hop, hentered⟩ := h.enters
      exact ⟨f, below, [], say.text.toList, none, hsettle, hop, .enters hentered, rfl, rfl, rfl,
        .inl ⟨rfl, rfl⟩⟩
  | succ i ih =>
      obtain ⟨f, below, done, rest, last, hsettle, hop, htyping⟩ := ih (Nat.le_of_succ_le hi)
      obtain ⟨htyped, -⟩ := htyping.types.told_eq hpace htyping.text stage (time i) hsettle hop
      obtain ⟨left, s, hleft, hshown, hwhole, htext, hturn⟩ :=
        htyping.exists_after hpace hsettle hop
      by_cases hdone : left = []
      · rw [if_pos hdone] at hturn
        exact absurd hturn (h.not_more hi _ s)
      · -- the frame is on top again with what it has kept, whatever is below it by then
        rw [if_neg hdone] at hturn
        obtain ⟨⟨below', hsettle'⟩, -⟩ := h.next hi hturn
        exact ⟨_, below', _, left, _, hsettle', hop, .goesOn rfl rfl, htext, hwhole, hshown,
          .inr ⟨hdone, htyping.exists_recent htyped hleft hdone⟩⟩

/-! ## What a text shows, and when -/

/-- After a turn some chunks of the text are shown. Unless nothing is left, the text suspends. -/
theorem Stint.exists_after (h : Stint stage meanwhile (.say say) time place n)
    (hpace : 0 ≤ say.intervalMs) (hi : i ≤ n) :
    ∃ done left, typedBefore stage time place (i + 1) = done.map String.ofList ∧
      chunks say.text.toList = done ++ chunks left ∧ say.text.toList = done.flatten ++ left ∧
      if left = [] then Completes stage (time i) (place i)
      else ∃ last, Suspends stage (time i) (place i)
        (.say (byteSize done.flatten) done.flatten.length last) := by
  obtain ⟨f, below, done, rest, last, hsettle, hop, htyping⟩ := h.exists_typing hpace hi
  obtain ⟨left, s, -, hshown, hwhole, htext, hturn⟩ := htyping.exists_after hpace hsettle hop
  refine ⟨_, left, hshown, hwhole, htext, ?_⟩
  by_cases hdone : left = []
  · rw [if_pos hdone] at hturn ⊢
    exact ⟨f, below, s, hsettle, hturn⟩
  · rw [if_neg hdone] at hturn ⊢
    exact ⟨_, f, below, s, hsettle, hturn⟩

theorem Stint.typedBefore_isPrefix (h : Stint stage meanwhile (.say say) time place n)
    (hpace : 0 ≤ say.intervalMs) (hi : i ≤ n) :
    typedBefore stage time place (i + 1) <+: say.pieces := by
  obtain ⟨done, left, hshown, hwhole, -, -⟩ := h.exists_after hpace hi
  rw [hshown, Say.pieces, hwhole]
  exact (List.prefix_append done _).map _

/-- Something is left of a text as long as not all of its pieces have been shown. -/
theorem pieces_eq_iff {left : List Char} (hshown : typedBefore stage time place i =
    done.map String.ofList) (hwhole : Cutscene.chunks say.text.toList = done ++ chunks left) :
    typedBefore stage time place i = say.pieces ↔ left = [] := by
  rw [hshown, Say.pieces, hwhole, List.map_append, List.self_eq_append_right, List.map_eq_nil_iff,
    chunks_eq_nil_iff]

/-- A text is done with the turn that shows the last of its pieces. -/
theorem Stint.completes_iff (h : Stint stage meanwhile (.say say) time place n)
    (hpace : 0 ≤ say.intervalMs) (hi : i ≤ n) :
    Completes stage (time i) (place i) ↔ typedBefore stage time place (i + 1) = say.pieces := by
  obtain ⟨done, left, hshown, hwhole, -, hturn⟩ := h.exists_after hpace hi
  rw [pieces_eq_iff hshown hwhole]
  split at hturn
  · rename_i hleft
    exact iff_of_true hturn hleft
  · rename_i hleft
    obtain ⟨last, hsuspends⟩ := hturn
    exact iff_of_false hsuspends.not_completes hleft

/-- A text that is not done keeps where its rest begins. -/
theorem Stint.exists_suspends (h : Stint stage meanwhile (.say say) time place n)
    (hpace : 0 ≤ say.intervalMs) (hi : i ≤ n)
    (hmore : typedBefore stage time place (i + 1) ≠ say.pieces) :
    let shown := String.join (typedBefore stage time place (i + 1))
    ∃ rest last, say.text = shown ++ String.ofList rest ∧
      Suspends stage (time i) (place i) (.say shown.utf8ByteSize shown.length last) ∧
      dropBytes? shown.utf8ByteSize say.text.toList = some rest := by
  intro shown
  obtain ⟨done, left, hshown, hwhole, htext, hturn⟩ := h.exists_after hpace hi
  have hjoin : shown = String.ofList done.flatten := by rw [← join_map_ofList, ← hshown]
  have hsize : shown.utf8ByteSize = byteSize done.flatten := by
    rw [hjoin, String.utf8ByteSize_ofList, byteSize_eq_utf8Len]
  rw [if_neg (mt (pieces_eq_iff hshown hwhole).2 hmore)] at hturn
  obtain ⟨last, hsuspends⟩ := hturn
  refine ⟨left, last, ?_, ?_, ?_⟩
  · rw [hjoin, ← String.ofList_append, ← htext, String.ofList_toList]
  · rwa [hsize, hjoin, String.length_ofList]
  · rw [hsize, htext, dropBytes?_byteSize]

theorem Stint.length_typed_le (h : Stint stage meanwhile (.say say) time place n)
    (hpace : 0 ≤ say.intervalMs) (hi : i ≤ n) :
    (typed stage (time i) (place i)).length ≤ 1 := by
  obtain ⟨f, below, done, rest, last, hsettle, hop, htyping⟩ := h.exists_typing hpace hi
  rw [(htyping.types.told_eq hpace htyping.text stage (time i) hsettle hop).1, List.length_map,
    Say.dueChunks]
  split
  · exact Nat.zero_le 1
  · exact Nat.le_refl 1

/-- A turn of a text shows something if the last turn that did is long enough ago. -/
theorem Stint.typed_ne_nil_iff (h : Stint stage meanwhile (.say say) time place n)
    (hpace : 0 ≤ say.intervalMs) (hi : i ≤ n) :
    typed stage (time i) (place i) ≠ [] ↔ say.text ≠ "" ∧
      ∀ j, IsGreatest (showing stage time place i) j → say.pace ≤ time i - time j := by
  obtain ⟨f, below, done, rest, last, hsettle, hop, htyping⟩ := h.exists_typing hpace hi
  obtain ⟨htyped, -⟩ := htyping.types.told_eq hpace htyping.text stage (time i) hsettle hop
  have hdue : typed stage (time i) (place i) ≠ [] ↔
      isDue say.pace (time i) last = true ∧ rest ≠ [] := by
    rw [htyped, ← Say.due_ne_nil_iff, ne_eq, List.map_eq_nil_iff, Say.dueChunks_eq_nil_iff]
  rw [hdue]
  rcases htyping.recent with ⟨rfl, rfl⟩ | ⟨hrest, j, hgreatest, rfl⟩
  · have hnone : ∀ j, ¬IsGreatest (showing stage time place 0) j :=
      fun j hj => Nat.not_lt_zero j hj.1.1
    have hdone : done = [] := List.map_eq_nil_iff.1 htyping.shown.symm
    have htext : say.text.toList = rest := by
      rw [htyping.text, hdone, List.flatten_nil, List.nil_append]
    have hwhole : rest ≠ [] ↔ say.text ≠ "" := by rw [← htext, ne_eq, String.toList_eq_nil_iff]
    simp only [isDue, true_and, hwhole, hnone, false_implies, implies_true, and_true]
  · have htext : say.text ≠ "" := by
      rw [ne_eq, ← String.toList_eq_nil_iff, htyping.text]
      exact List.append_ne_nil_of_right_ne_nil _ hrest
    have hlast : ∀ j', IsGreatest (showing stage time place i) j' ↔ j' = j :=
      fun j' => ⟨fun hj' => hj'.unique hgreatest, fun hj' => hj' ▸ hgreatest⟩
    simp only [isDue, decide_eq_true_iff, hrest, htext, hlast, forall_eq, ne_eq, not_false_iff,
      and_true, true_and]

/-- If the turns come as far apart as the pieces of a text, each of them shows one until all are
shown. -/
theorem Stint.typed_ne_nil (h : Stint stage meanwhile (.say say) time place n)
    (hpace : 0 ≤ say.intervalMs) (htext : say.text ≠ "")
    (hspaced : ∀ i < n, say.pace ≤ time (i + 1) - time i) (hi : i ≤ n) :
    typed stage (time i) (place i) ≠ [] := by
  induction i with
  | zero =>
      exact (h.typed_ne_nil_iff hpace hi).2
        ⟨htext, fun j hj => absurd hj.1.1 (Nat.not_lt_zero j)⟩
  | succ i ih =>
      refine (h.typed_ne_nil_iff hpace hi).2 ⟨htext, fun j hj => ?_⟩
      obtain rfl := hj.unique (isGreatest_showing_succ (ih (Nat.le_of_succ_le hi)))
      exact hspaced j hi

theorem Stint.length_typedBefore (h : Stint stage meanwhile (.say say) time place n)
    (hpace : 0 ≤ say.intervalMs) (htext : say.text ≠ "")
    (hspaced : ∀ i < n, say.pace ≤ time (i + 1) - time i) (hi : i ≤ n + 1) :
    (typedBefore stage time place i).length = i := by
  induction i with
  | zero => rfl
  | succ i ih =>
      have hlast := h.length_typed_le hpace (Nat.le_of_succ_le_succ hi)
      have hsome := List.length_pos_iff.2
        (h.typed_ne_nil hpace htext hspaced (Nat.le_of_succ_le_succ hi))
      rw [typedBefore_succ, List.length_append, ih (Nat.le_of_succ_le hi)]
      omega

/-- If the turns come as far apart as the pieces of a text, turn `i` shows piece `i`. -/
theorem Stint.typed_eq_getElem? (h : Stint stage meanwhile (.say say) time place n)
    (hpace : 0 ≤ say.intervalMs) (hspaced : ∀ i < n, say.pace ≤ time (i + 1) - time i)
    (hi : i ≤ n) :
    typed stage (time i) (place i) = say.pieces[i]?.toList ∧
      (Completes stage (time i) (place i) ↔ i = say.pieces.length - 1) := by
  by_cases htext : say.text = ""
  · -- an empty text is done with its first turn, though it has no piece to show
    have hnone : say.pieces = [] := by
      rw [Say.pieces, htext]
      rfl
    have hends : ∀ j ≤ n, Completes stage (time j) (place j) := by
      intro j hj
      rw [h.completes_iff hpace hj, hnone, ← List.prefix_nil, ← hnone]
      exact h.typedBefore_isPrefix hpace hj
    have hfirst : i = 0 := by
      by_contra hne
      have hlater : 0 < n := Nat.lt_of_lt_of_le (Nat.pos_of_ne_zero hne) hi
      exact h.not_completes hlater (hends 0 (Nat.zero_le n))
    have htyped : typed stage (time i) (place i) = [] :=
      not_not.1 fun hne => ((h.typed_ne_nil_iff hpace hi).1 hne).1 htext
    rw [htyped, hnone]
    exact ⟨rfl, iff_of_true (hends i hi) hfirst⟩
  · have hlength := h.length_typedBefore hpace htext hspaced (Nat.le_succ_of_le hi)
    obtain ⟨piece, hpiece⟩ : ∃ piece, typed stage (time i) (place i) = [piece] :=
      List.length_eq_one_iff.1 (Nat.le_antisymm (h.length_typed_le hpace hi)
        (List.length_pos_iff.2 (h.typed_ne_nil hpace htext hspaced hi)))
    obtain ⟨left, hleft⟩ := h.typedBefore_isPrefix hpace hi
    rw [h.completes_iff hpace hi, ← hleft, typedBefore_succ, hpiece, List.self_eq_append_right]
    constructor
    · rw [List.append_assoc, List.getElem?_append_right hlength.le, hlength, Nat.sub_self]
      rfl
    · rw [List.length_append, List.length_append, hlength, List.length_singleton,
        ← List.length_eq_zero_iff]
      omega

/-- A text is typed out in its pieces, on any stage and whatever happens between its turns. A turn
shows the next piece if the last one was shown at least the text's interval ago, and no turn shows
two. The turn that shows the last piece is the one with which the text is done, the first turn if
there is nothing to show. Until then the frame keeps how much has been shown, which is where a
character begins, so that the rest can always be taken off the text. -/
theorem say_typed_on_time (h : Stint stage meanwhile (.say say) time place n)
    (hpace : 0 ≤ say.intervalMs) :
    String.join say.pieces = say.text ∧
    (∀ i ≤ n,
      let typed := typed stage (time i) (place i)
      let sofar := typedBefore stage time place (i + 1)
      let shown := String.join sofar
      sofar = typedBefore stage time place i ++ typed ∧ sofar <+: say.pieces ∧ typed.length ≤ 1 ∧
      (typed ≠ [] ↔ say.text ≠ "" ∧
        ∀ j, IsGreatest (showing stage time place i) j → say.pace ≤ time i - time j) ∧
      (Completes stage (time i) (place i) ↔ sofar = say.pieces) ∧
      (sofar ≠ say.pieces → ∃ rest last, say.text = shown ++ String.ofList rest ∧
        Suspends stage (time i) (place i) (.say shown.utf8ByteSize shown.length last) ∧
        dropBytes? shown.utf8ByteSize say.text.toList = some rest)) ∧
    ((∀ i < n, say.pace ≤ time (i + 1) - time i) → ∀ i ≤ n,
      typed stage (time i) (place i) = say.pieces[i]?.toList ∧
      (Completes stage (time i) (place i) ↔ i = say.pieces.length - 1)) :=
  ⟨say.join_pieces, fun _ hi => ⟨typedBefore_succ stage time place _,
      h.typedBefore_isPrefix hpace hi, h.length_typed_le hpace hi, h.typed_ne_nil_iff hpace hi,
      h.completes_iff hpace hi, h.exists_suspends hpace hi⟩,
    fun hspaced _ hi => h.typed_eq_getElem? hpace hspaced hi⟩

/-- A text of wide characters, in two pieces that begin with a character and one that begins with a
blank, and a blank at the end. -/
def hum : Say := ⟨"é 𝄞 ", none, 2, false⟩

/-- Times of which some come too early for the next piece and one goes back. -/
def humTime (i : ℕ) : ℕ := [5, 6, 4, 8, 8, 10].getD i 0 * nanosPerMilli

/-- The turns of that text at those times. -/
def humming : ℕ → Tracker × Rehearsal :=
  onward Rehearsal.stage humTime (fun _ => id)
    (⟨[.start (.make 0 (some "hum") [.say hum])], .silent⟩, .opening .empty .empty)

theorem stint_humming : Stint Rehearsal.stage Eq (.say hum) humTime humming 5 := by
  refine stint_onward (fun _ _ => rfl) rfl rfl rfl fun i hi => ?_
  interval_cases i <;> exact ⟨_, _, rfl⟩

theorem say_typed_on_time_humming :
    (∀ i ≤ 5, (Completes Rehearsal.stage (humTime i) (humming i) ↔
      typedBefore Rehearsal.stage humTime humming (i + 1) = ["é", " 𝄞", " "])) ∧
    typedBefore Rehearsal.stage humTime humming 6 = ["é", " 𝄞", " "] ∧
    ∃ last, Suspends Rehearsal.stage (humTime 4) (humming 4) (.say 7 3 last) := by
  have hshown : typedBefore Rehearsal.stage humTime humming 5 = ["é", " 𝄞"] := by decide +kernel
  have hpieces : hum.pieces = ["é", " 𝄞", " "] := by decide +kernel
  obtain ⟨-, hturns, -⟩ := say_typed_on_time stint_humming (by decide)
  refine ⟨fun i hi => ?_, by decide +kernel, ?_⟩
  · rw [← hpieces]
    exact (hturns i hi).2.2.2.2.1
  · obtain ⟨rest, last, -, hsuspends, -⟩ := (hturns 4 (by decide)).2.2.2.2.2 (by
      rw [hshown, hpieces]
      decide)
    rw [hshown] at hsuspends
    exact ⟨last, hsuspends⟩

end Tracker

end

end Cutscene
