import Cutscene.Proofs.Session.Playing
import Cutscene.Proofs.Tracker.Typing
import Cutscene.Script.Interpreter

/-!
# Clicks

A click sounds with a piece of a text that begins at an even place, one with every two characters.
Where a blank with the character after it begins at an odd place, the click of its second character
does not sound (`unheard`): two characters are shown at once, and only the first one is asked.
-/

namespace Cutscene

open Tracker

/-! ## Places -/

/-- How many of some pieces, the first of which begins at some place, are of two characters the
second of which is at an even place. -/
def unheard : ℕ → List String → ℕ
  | _, [] => 0
  | place, piece :: pieces =>
    (if piece.length = 2 ∧ place % 2 = 1 then 1 else 0) + unheard (place + piece.length) pieces

theorem unheard_append (place : ℕ) (pieces pieces' : List String) :
    unheard place (pieces ++ pieces') =
      unheard place pieces + unheard (place + (String.join pieces).length) pieces' := by
  induction pieces generalizing place with
  | nil => simp [unheard]
  | cons piece pieces ih =>
      rw [List.cons_append, unheard, unheard, ih, String.join_cons, String.length_append]
      simp only [Nat.add_assoc]

theorem unheard_eq_zero {pieces : List String} (h : ∀ piece ∈ pieces, piece.length ≠ 2)
    (place : ℕ) : unheard place pieces = 0 := by
  induction pieces generalizing place with
  | nil => rfl
  | cons piece pieces ih =>
      obtain ⟨hpiece, hpieces⟩ := List.forall_mem_cons.1 h
      rw [unheard, ih hpieces, if_neg fun hpair => hpiece hpair.1]

theorem length_chunk {cs : List Char} (h : cs ≠ []) :
    (chunk cs).length = 1 ∨ (chunk cs).length = 2 := by
  unfold chunk
  split
  · exact absurd rfl h
  · exact .inl rfl
  · split
    · exact .inr rfl
    · exact .inl rfl

/-- In a text without blanks every piece is one character. -/
theorem Say.length_of_mem_pieces {say : Say} (h : ∀ c ∈ say.text.toList, Text.isBlank c = false)
    {piece : String} (hpiece : piece ∈ say.pieces) : piece.length = 1 := by
  obtain ⟨cs, hcs, rfl⟩ := List.mem_map.1 hpiece
  rw [String.length_ofList]
  generalize say.text.toList = text at h hcs
  fun_induction chunks text with
  | case1 => cases hcs
  | case2 c => rw [List.mem_singleton.1 hcs]; rfl
  | case3 c d rest hblank ih => exact absurd (h c List.mem_cons_self) (by simp [hblank])
  | case4 c d rest hblank ih =>
      rcases List.mem_cons.1 hcs with rfl | hcs
      · rfl
      · exact ih (List.forall_mem_cons.1 h).2 hcs

/-! ## The clicks of a text -/

namespace Tracker

section

variable {σ : Type} {stage : Stage σ} {meanwhile : Tracker × σ → Tracker × σ → Prop}
  {time : ℕ → ℕ} {place : ℕ → Tracker × σ} {n i : ℕ} {say : Say}

/-- How often a click sounds in the turns before `i`. -/
def clickedBefore (stage : Stage σ) (time : ℕ → ℕ) (place : ℕ → Tracker × σ) (i : ℕ) : ℕ :=
  ((List.range i).map fun j => clicked stage (time j) (place j)).sum

theorem clickedBefore_succ (stage : Stage σ) (time : ℕ → ℕ) (place : ℕ → Tracker × σ) (i : ℕ) :
    clickedBefore stage time place (i + 1) =
      clickedBefore stage time place i + clicked stage (time i) (place i) := by
  rw [clickedBefore, List.range_succ, List.map_append, List.sum_append, List.map_singleton,
    List.sum_singleton]
  rfl

/-- One turn of a text: with a piece that begins at an even place a click sounds. -/
theorem Stint.clicked_eq (h : Stint stage meanwhile (.say say) time place n)
    (hpace : 0 ≤ say.intervalMs) (hi : i ≤ n) :
    typed stage (time i) (place i) = [] ∧ clicked stage (time i) (place i) = 0 ∨
      ∃ piece, typed stage (time i) (place i) = [piece] ∧ (piece.length = 1 ∨ piece.length = 2) ∧
        clicked stage (time i) (place i) =
          if (String.join (typedBefore stage time place i)).length % 2 = 0 then 1 else 0 := by
  obtain ⟨f, below, done, rest, last, hsettle, hop, htyping⟩ := h.exists_typing hpace hi
  obtain ⟨htyped, hclicked⟩ := htyping.types.told_eq hpace htyping.text stage (time i) hsettle hop
  have hlength : (String.join (typedBefore stage time place i)).length = done.flatten.length := by
    rw [htyping.shown, join_map_ofList, String.length_ofList]
  by_cases hdue : say.due (time i) last rest = []
  · rw [Say.dueChunks_eq_nil_iff.2 hdue, List.map_nil] at htyped
    rw [if_neg fun h => h.1 hdue] at hclicked
    exact .inl ⟨htyped, hclicked⟩
  · rw [Say.dueChunks, if_neg hdue, List.map_singleton] at htyped
    obtain ⟨hdue', hrest⟩ := Say.due_ne_nil_iff.1 hdue
    refine .inr ⟨_, htyped, ?_, ?_⟩
    · rw [String.length_ofList, Say.due, if_pos hdue']
      exact length_chunk hrest
    · rw [hlength, hclicked]
      simp only [ne_eq, hdue, not_false_iff, true_and, dialogClickInterval]

/-- The clicks of a text and those that were not heard are one for every two characters that are
shown. -/
theorem Stint.clickedBefore_add (h : Stint stage meanwhile (.say say) time place n)
    (hpace : 0 ≤ say.intervalMs) (hi : i ≤ n + 1) :
    clickedBefore stage time place i + unheard 0 (typedBefore stage time place i) =
      ((String.join (typedBefore stage time place i)).length + 1) / 2 := by
  induction i with
  | zero => simp [clickedBefore, typedBefore, unheard]
  | succ i ih =>
      have hbefore := ih (Nat.le_of_succ_le hi)
      rw [clickedBefore_succ, typedBefore_succ]
      rcases h.clicked_eq hpace (Nat.le_of_succ_le_succ hi) with
        ⟨htyped, hclicked⟩ | ⟨piece, htyped, hlength, hclicked⟩
      · rw [htyped, hclicked, List.append_nil, Nat.add_zero]
        exact hbefore
      · -- of one or two more characters one is at an even place, unless it is one at an odd place
        rw [htyped, hclicked, unheard_append, String.join_append, String.length_append, unheard,
          unheard, String.join_cons, String.join_nil, String.append_empty, Nat.zero_add]
        split_ifs <;> omega

/-- At every moment of a text that is typed out a click has sounded for every two characters that
are shown, except for those that fell on the second character of a pair (`unheard`). In a text
without blanks there is no such pair. -/
theorem say_clicks (h : Stint stage meanwhile (.say say) time place n)
    (hpace : 0 ≤ say.intervalMs) (hi : i ≤ n + 1) :
    let shown := typedBefore stage time place i
    clickedBefore stage time place i + unheard 0 shown = ((String.join shown).length + 1) / 2 ∧
      ((∀ c ∈ say.text.toList, Text.isBlank c = false) → unheard 0 shown = 0) := by
  intro shown
  refine ⟨h.clickedBefore_add hpace hi, fun hblank => unheard_eq_zero ?_ 0⟩
  intro piece hpiece
  have hbegins : shown <+: say.pieces := by
    cases i with
    | zero => exact List.nil_prefix
    | succ i => exact h.typedBefore_isPrefix hpace (Nat.le_of_succ_le_succ hi)
  rw [Say.length_of_mem_pieces hblank (hbegins.subset hpiece)]
  decide

/-- Of the four characters two begin at even places, but the second of them is in a pair. -/
theorem say_clicks_humming : clickedBefore Rehearsal.stage humTime humming 6 = 1 := by
  have hshown : typedBefore Rehearsal.stage humTime humming 6 = ["é", " 𝄞", " "] := by
    decide +kernel
  obtain ⟨hclicks, -⟩ := say_clicks stint_humming (by decide) (i := 6) (by decide)
  rw [hshown] at hclicks
  exact Nat.add_right_cancel (m := 1) hclicks

end

end Tracker

/-! ## A click that does not sound -/

namespace Session

/-- A text whose second piece is a pair that begins at an odd place. -/
def pairing : Say := ⟨"a b", none, 0, false⟩

/-- A scene that begins with this text. -/
def pairingSources : Sources := scenerySources [.say pairing]

/-- The three characters are shown in two frames, and one click sounds for them instead of two. -/
theorem click_lost_in_pair :
    ∃ s, load pairingSources .standard "scene.json" = ([], .ok s) ∧
      let session i := (frame pairingSources)^[i] s
      let time i := (beginFrame pairingSources (session i)).now
      let place i := (beginFrame pairingSources (session i)).moment
      Stint (stage pairingSources) (fun _ _ => True) (.say pairing) time place 1 ∧
        String.join (typedBefore (stage pairingSources) time place 2) = pairing.text ∧
        clickedBefore (stage pairingSources) time place 2 = 1 ∧
        (pairing.text.length + 1) / 2 = 2 := by
  have hplay : ∃ s t w s', load pairingSources .standard "scene.json" = ([], .ok s) ∧
      turn (stage pairingSources) (beginFrame pairingSources s).now
        (beginFrame pairingSources s).tracker (beginFrame pairingSources s).world =
          .ended .suspended t w ∧
      finishFrame pairingSources .suspended
        { beginFrame pairingSources s with tracker := t, world := w } = s' ∧
      (settle (beginFrame pairingSources s').tracker.frames).head? = t.frames.head? ∧
      (∃ f below, settle (beginFrame pairingSources s).tracker.frames = f :: below ∧
        f.operation? = some (.say pairing) ∧ f.justEntered = true) ∧
      asked (stage pairingSources) (beginFrame pairingSources s).now
          (beginFrame pairingSources s).moment =
        [.openBox, .setText "", .dialogClick, .appendText "a"] ∧
      asked (stage pairingSources) (beginFrame pairingSources s').now
        (beginFrame pairingSources s').moment = [.appendText " b"] :=
    ⟨_, _, _, _, rfl, rfl, rfl, rfl, ⟨_, _, rfl, rfl, rfl⟩, rfl, rfl⟩
  obtain ⟨s, t, w, s', hload, hturn, hfinish, hresumes, henters, hasked, hasked'⟩ := hplay
  -- the scripts that the first frame runs after its events touch nothing that the text needs
  refine ⟨s, hload, ?_⟩
  intro session time place
  have hsession : session 1 = s' := (frame_eq (.ended hturn)).trans hfinish
  have hstint : Stint (stage pairingSources) (fun _ _ => True) (.say pairing) time place 1 := by
    refine ⟨henters, fun i hi => ?_⟩
    obtain rfl : i = 0 := Nat.lt_one_iff.1 hi
    refine ⟨(t, w), hturn, ?_, trivial⟩
    unfold place
    rw [hsession]
    exact hresumes
  have hfirst : asked (stage pairingSources) (time 0) (place 0) =
      [.openBox, .setText "", .dialogClick, .appendText "a"] := hasked
  have hsecond : asked (stage pairingSources) (time 1) (place 1) = [.appendText " b"] := by
    unfold time place
    rw [hsession]
    exact hasked'
  refine ⟨hstint, ?_, ?_, rfl⟩
  · rw [typedBefore_succ, typedBefore_succ, typed, typed, hfirst, hsecond]
    rfl
  · rw [clickedBefore_succ, clickedBefore_succ, clicked, clicked, hfirst, hsecond]
    rfl

end Session

end Cutscene
