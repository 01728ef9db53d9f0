import Mathlib.Data.String.Basic
import Cutscene.Proofs.Stage.Upkeep

/-!
# Operations that take their time

Texts, waits and fades go on from tick to tick and end by themselves. What they keep meanwhile tells
how long that can still take: a wait and a fade keep when they began, and a text keeps how much of
it is shown and since when. `Operation.patience` counts it, and `patience_lt` says that time makes
it less whenever the operation suspends.

A text comes to its end because every chunk shows something, and that is so because what is shown
ends between two characters (`Splits`). Progress that an operation can have (`Attains`) is of that
kind.
-/

namespace Cutscene

/-! ## Chunks -/

theorem byteSize_eq_utf8Len (cs : List Char) : byteSize cs = String.utf8Len cs := by
  induction cs with
  | nil => rfl
  | cons c cs ih =>
      rw [String.utf8Len_cons, ← ih, Nat.add_comm]
      rfl

theorem byteSize_toList (text : String) : byteSize text.toList = text.utf8ByteSize := by
  rw [byteSize_eq_utf8Len, ← String.utf8ByteSize_ofList, String.ofList_toList]

@[simp] theorem byteSize_cons (c : Char) (cs : List Char) :
    byteSize (c :: cs) = c.utf8Size + byteSize cs := rfl

theorem byteSize_append (cs ds : List Char) :
    byteSize (cs ++ ds) = byteSize cs + byteSize ds := by
  induction cs with
  | nil => exact (Nat.zero_add _).symm
  | cons c cs ih => rw [List.cons_append, byteSize_cons, byteSize_cons, ih, Nat.add_assoc]

@[simp] theorem byteSize_nil : byteSize [] = 0 := rfl

theorem byteSize_pos {cs : List Char} (h : cs ≠ []) : 0 < byteSize cs := by
  obtain ⟨c, rest, rfl⟩ := List.exists_cons_of_ne_nil h
  exact Nat.add_pos_left c.utf8Size_pos _

theorem chunk_ne_nil {cs : List Char} (h : cs ≠ []) : chunk cs ≠ [] := by
  unfold chunk
  split
  · exact absurd rfl h
  · simp
  · split <;> simp

theorem chunk_isPrefix (cs : List Char) : chunk cs <+: cs := by
  unfold chunk
  split
  · exact List.prefix_rfl
  · exact List.prefix_rfl
  · split <;> simp

/-- The beginning of a text has all its bytes only if it is all of it. -/
theorem byteSize_le_iff {cs ds : List Char} (h : ds <+: cs) :
    byteSize cs ≤ byteSize ds ↔ ds = cs := by
  obtain ⟨rest, rfl⟩ := h
  constructor
  · intro hle
    rw [byteSize_append] at hle
    by_contra hne
    have hrest : rest ≠ [] := by
      rintro rfl
      exact hne (List.append_nil ds).symm
    have hpos := byteSize_pos hrest
    omega
  · intro heq
    rw [← heq]

/-- The first bytes of a text are so many of its characters. -/
def Splits (text : String) (offset : ℕ) : Prop :=
  ∃ shown rest, text.toList = shown ++ rest ∧ byteSize shown = offset

theorem dropBytes?_byteSize (shown rest : List Char) :
    dropBytes? (byteSize shown) (shown ++ rest) = some rest := by
  induction shown with
  | nil =>
      unfold dropBytes?
      rfl
  | cons c shown ih =>
      obtain ⟨n, hn⟩ : ∃ n, byteSize (c :: shown) = n + 1 :=
        Nat.exists_eq_succ_of_ne_zero (byteSize_pos (List.cons_ne_nil c shown)).ne'
      rw [hn, List.cons_append, dropBytes?, ← hn, byteSize_cons, if_pos (Nat.le_add_right _ _),
        Nat.add_sub_cancel_left, ih]

theorem splits_zero (text : String) : Splits text 0 := ⟨[], text.toList, rfl, rfl⟩

/-! ## Texts -/

/-- How long a text waits from one chunk to the next. -/
def Say.pace (say : Say) : ℕ := say.intervalMs.toInt.toNat * nanosPerMilli

/-- What a text shows next of the characters that are left: a chunk if one is due. -/
def Say.due (say : Say) (now : ℕ) (last : Option ℕ) (rest : List Char) : List Char :=
  if isDue say.pace now last then chunk rest else []

theorem Say.due_isPrefix (say : Say) (now : ℕ) (last : Option ℕ) (rest : List Char) :
    say.due now last rest <+: rest := by
  unfold due
  split
  · exact chunk_isPrefix rest
  · exact List.nil_prefix

theorem Say.due_ne_nil_iff {say : Say} {now : ℕ} {last : Option ℕ} {rest : List Char} :
    say.due now last rest ≠ [] ↔ isDue say.pace now last = true ∧ rest ≠ [] := by
  unfold due
  split
  · rename_i hdue
    refine ⟨fun hne => ⟨hdue, ?_⟩, fun h => chunk_ne_nil h.2⟩
    rintro rfl
    exact hne rfl
  · rename_i hdue
    exact iff_of_false (fun hne => hne rfl) fun h => hdue h.1

section

variable {σ : Type} {stage : Stage σ}

/-- One tick of a text of which some is shown: it shows what is due, and the text is done when
nothing is left. -/
theorem typeOut_eq {say : Say} {shown rest : List Char} (htext : say.text.toList = shown ++ rest)
    (voices : Voices) (now revealed : ℕ) (last : Option ℕ) (s : σ) :
    let due := say.due now last rest
    let s' := if due = [] then s else stage.appendText (String.ofList due)
      (if revealed % dialogClickInterval = 0 then stage.dialogClick s else s)
    typeOut stage say voices now (byteSize shown) revealed last s =
      if due = rest then (.next, endSpeech stage voices s')
      else (.suspend (.say (byteSize (shown ++ due)) (revealed + due.length)
        (if due = [] then last else some now)), s') := by
  intro due s'
  have htotal : say.text.utf8ByteSize = byteSize shown + byteSize rest := by
    rw [← byteSize_toList, htext, byteSize_append]
  have hslice : (dropBytes? (byteSize shown) say.text.toList).getD [] = rest := by
    rw [htext, dropBytes?_byteSize, Option.getD_some]
  have hend : byteSize shown + byteSize rest ≤ byteSize shown + byteSize due ↔ due = rest := by
    rw [Nat.add_le_add_iff_left, byteSize_le_iff (say.due_isPrefix now last rest)]
  have hshows : (isDue say.pace now last &&
      decide (byteSize shown < byteSize shown + byteSize rest)) = true ↔ due ≠ [] := by
    have hleft : 0 < byteSize rest ↔ rest ≠ [] := by
      refine ⟨?_, byteSize_pos⟩
      rintro hpos rfl
      exact lt_irrefl _ hpos
    rw [Bool.and_eq_true, decide_eq_true_iff, Nat.lt_add_right_iff_pos, hleft]
    exact Say.due_ne_nil_iff.symm
  unfold typeOut
  rw [← Say.pace, htotal, hslice, byteSize_append]
  by_cases hnext : due = []
  · have hquiet := mt hshows.1 (not_not.2 hnext)
    simp only [if_neg hquiet]
    simp only [s', hnext, if_true, byteSize_nil, Nat.add_zero, List.length_nil] at hend ⊢
    simp only [hend]
  · have hdue := hshows.2 hnext
    have hchunk : chunk rest = due := (if_pos (Bool.and_eq_true_iff.1 hdue).1).symm
    simp only [if_pos hdue]
    simp only [hchunk, hend, s', hnext, if_false]

/-- A text that is not yet at its end has waited for the next chunk or has shown one. -/
theorem typeOut_suspend {say : Say} {voices : Voices} {now offset revealed : ℕ}
    {last : Option ℕ} {s : σ} {p : Progress} (hsplits : Splits say.text offset)
    (h : (typeOut stage say voices now offset revealed last s).1 = .suspend p) :
    (∃ shownAt, last = some shownAt ∧ now - shownAt < say.pace ∧ p = .say offset revealed last) ∨
      ∃ offset' revealed', p = .say offset' revealed' (some now) ∧ Splits say.text offset' ∧
        offset < offset' ∧ offset' < say.text.utf8ByteSize := by
  obtain ⟨shown, rest, htext, rfl⟩ := hsplits
  rw [typeOut_eq htext] at h
  split at h
  · cases h
  · rename_i hmore
    obtain rfl := Flow.suspend.inj h
    obtain ⟨left, hleft⟩ := say.due_isPrefix now last rest
    have hleft_ne : left ≠ [] := by
      rintro rfl
      exact hmore ((List.append_nil _).symm.trans hleft)
    have hrest : rest ≠ [] := by
      rintro rfl
      exact hleft_ne (List.append_eq_nil_iff.1 hleft).2
    by_cases hdue : say.due now last rest = []
    · have hwaits : ¬isDue say.pace now last = true := fun h =>
        Say.due_ne_nil_iff.2 ⟨h, hrest⟩ hdue
      cases last with
      | none => exact absurd rfl hwaits
      | some shownAt => exact .inl ⟨shownAt, rfl, by simpa [isDue] using hwaits, by simp [hdue]⟩
    · have hsplit : say.text.toList = (shown ++ say.due now last rest) ++ left := by
        rw [htext, List.append_assoc, hleft]
      refine .inr ⟨_, _, by rw [if_neg hdue], ⟨_, left, hsplit, rfl⟩, ?_, ?_⟩
      · rw [byteSize_append]
        exact Nat.lt_add_of_pos_right (byteSize_pos hdue)
      · rw [← byteSize_toList, hsplit, byteSize_append _ left]
        exact Nat.lt_add_of_pos_right (byteSize_pos hleft_ne)

/-- Where a text goes on: at its beginning when it is entered, otherwise where it was. -/
def textAt (entering : Bool) (p : Progress) : ℕ × Option ℕ :=
  match entering, p with
  | false, .say offset _ last => (offset, last)
  | _, _ => (0, none)

@[simp] theorem textAt_say (offset revealed : ℕ) (last : Option ℕ) :
    textAt false (.say offset revealed last) = (offset, last) := rfl

theorem exists_typeOut {say : Say} {voices : Voices} {now : ℕ} {entering : Bool} {p p' : Progress}
    {s : σ} (h : (sayStep stage say voices now entering p s).1 = .suspend p') :
    ∃ revealed s', (typeOut stage say voices now (textAt entering p).1 revealed
      (textAt entering p).2 s').1 = .suspend p' := by
  unfold sayStep at h
  extract_lets s' at h
  split at h
  · cases h
  · split at h
    · exact ⟨_, _, h⟩
    · rename_i hnot
      have hstart : textAt entering p = (0, none) := by
        unfold textAt
        split
        · exact absurd rfl (hnot _ _ _ rfl)
        · rfl
      rw [hstart]
      exact ⟨_, _, h⟩

/-- How long a text can still take: the rest of the wait for the next chunk, and a whole wait and a
moment for every byte that is not shown. -/
def Say.patience (say : Say) (now : ℕ) (start : ℕ × Option ℕ) : ℕ :=
  (say.text.utf8ByteSize - start.1) * (say.pace + 1) +
    match start.2 with
    | none => 0
    | some shownAt => shownAt + say.pace - now

theorem Say.patience_lt {say : Say} {voices : Voices} {now step : ℕ} {entering : Bool}
    {p p' : Progress} {s : σ} (hsplits : Splits say.text (textAt entering p).1) (hstep : 0 < step)
    (h : (sayStep stage say voices now entering p s).1 = .suspend p') :
    say.patience (now + step) (textAt false p') < say.patience now (textAt entering p) := by
  obtain ⟨revealed, s', htype⟩ := exists_typeOut h
  rcases typeOut_suspend hsplits htype with ⟨shownAt, hlast, hwaits, rfl⟩ |
    ⟨offset, revealed', rfl, -, hlt, hmore⟩
  · have hless : shownAt + say.pace - (now + step) < shownAt + say.pace - now := by omega
    simp only [patience, textAt_say, hlast]
    exact Nat.add_lt_add_left hless _
  · -- the new chunk counts for more than the wait that follows it
    have hbytes : (say.text.utf8ByteSize - offset) * (say.pace + 1) + (say.pace + 1) ≤
        (say.text.utf8ByteSize - (textAt entering p).1) * (say.pace + 1) := by
      rw [← Nat.succ_mul]
      exact Nat.mul_le_mul_right _ (by omega)
    have hwait : now + say.pace - (now + step) < say.pace + 1 := by omega
    calc say.patience (now + step) (offset, some now)
        < (say.text.utf8ByteSize - offset) * (say.pace + 1) + (say.pace + 1) :=
          Nat.add_lt_add_left hwait _
      _ ≤ (say.text.utf8ByteSize - (textAt entering p).1) * (say.pace + 1) := hbytes
      _ ≤ say.patience now (textAt entering p) := Nat.le_add_right _ _

end

/-! ## Progress and patience -/

/-- Whether an operation waits for the player. -/
def Operation.asksPlayer : Operation → Bool
  | waitForKey | selection .. => true
  | _ => false

section

variable {σ : Type} (stage : Stage σ)

/-- The progress that an operation can have: none, or what a suspended execution has left. -/
inductive Operation.Attains (op : Operation) : Progress → Prop
  | fresh : Attains op .fresh
  | suspended {e : Event} {position now : ℕ} {entering : Bool} {p p' : Progress} {voices : Voices}
      {s : σ} (hp : Attains op p)
      (hflow : (execute stage e position op now entering p voices s).flow = .suspend p') :
      Attains op p'

/-- When a wait began: now if it is entered. -/
def waitStart (now : ℕ) (entering : Bool) (p : Progress) : ℕ :=
  match entering, p with
  | false, .wait started => started
  | _, _ => now

/-- When a fade began: now if it is entered. -/
def fadeStart (now : ℕ) (entering : Bool) (p : Progress) : ℕ :=
  match entering, p with
  | false, .fade started => started
  | _, _ => now

/-- How long an operation can still take by itself. -/
def Operation.patience (now : ℕ) (entering : Bool) (p : Progress) : Operation → ℕ
  | say text => text.patience now (textAt entering p)
  | wait duration => waitStart now entering p + millis duration - now
  | fadeIn duration => fadeStart now entering p + millis duration - now
  | fadeOut duration => fadeStart now entering p + millis duration - now
  | _ => 0

variable {stage}

/-- What an attained progress shows of a text ends between two characters. -/
theorem Operation.Attains.splits {say : Say} {p : Progress}
    (h : (Operation.say say).Attains stage p) (entering : Bool) :
    Splits say.text (textAt entering p).1 := by
  induction h generalizing entering with
  | fresh => cases entering <;> exact splits_zero say.text
  | @suspended e position now entering' p p' voices s hp hflow ih =>
      obtain ⟨revealed, s', htype⟩ := exists_typeOut hflow
      rcases typeOut_suspend (ih entering') htype with ⟨shownAt, hlast, hwaits, rfl⟩ |
        ⟨offset, revealed', rfl, hsplits, -, -⟩
      · cases entering
        · exact ih entering'
        · exact splits_zero say.text
      · cases entering
        · exact hsplits
        · exact splits_zero say.text

theorem waitStep_suspend {duration now : ℕ} {entering : Bool} {p p' : Progress}
    (h : waitStep duration now entering p = .suspend p') :
    now - waitStart now entering p < duration ∧ p' = .wait (waitStart now entering p) := by
  unfold waitStep at h
  change (if duration ≤ now - waitStart now entering p then Flow.next
    else .suspend (.wait (waitStart now entering p))) = .suspend p' at h
  split at h
  · cases h
  · rename_i hshort
    exact ⟨Nat.not_le.1 hshort, (Flow.suspend.inj h).symm⟩

theorem fadeStep_suspend {out : Bool} {duration now : ℕ} {entering : Bool} {p p' : Progress}
    {s : σ} (h : (fadeStep stage out duration now entering p s).1 = .suspend p') :
    now - fadeStart now entering p < duration ∧ p' = .fade (fadeStart now entering p) := by
  have hend : ∀ (unlike : Prop) [Decidable unlike] (started : ℕ) (s₁ s₂ : σ),
      (if now - started < duration ∧ unlike then (Flow.suspend (.fade started), s₁)
        else (Flow.next, s₂)).1 = .suspend p' → now - started < duration ∧ p' = .fade started := by
    intro unlike _ started s₁ s₂ h
    split at h
    · rename_i hshort
      exact ⟨hshort.1, (Flow.suspend.inj h).symm⟩
    · cases h
  unfold fadeStep at h
  dsimp only at h
  split at h
  · exact hend _ _ _ _ h
  · rename_i hnot
    have hstart : fadeStart now entering p = now := by
      unfold fadeStart
      split
      · exact absurd rfl (hnot _ rfl)
      · rfl
    rw [hstart]
    exact hend _ _ _ _ h

theorem flagIfStep_ne_suspend {e : Event} {position : ℕ} {flag : String} {target : Option String}
    {inlined : Option (List Operation)} {p : Progress} (s : σ) :
    (flagIfStep stage e position flag target inlined s).1 ≠ .suspend p := by
  unfold flagIfStep callNamed
  split
  · split
    · simp
    · split <;> simp
    · simp
  · simp

/-- An operation that suspends and does not wait for the player has less patience the next time. -/
theorem Operation.patience_lt {op : Operation} (hasks : op.asksPlayer = false) {e : Event}
    {position now step : ℕ} {entering : Bool} {p p' : Progress} {voices : Voices} {s : σ}
    (hp : op.Attains stage p) (hstep : 0 < step)
    (hflow : (execute stage e position op now entering p voices s).flow = .suspend p') :
    op.patience (now + step) false p' < op.patience now entering p := by
  cases op with
  | say say =>
      rw [execute, Effect.flow_plain] at hflow
      exact Say.patience_lt (hp.splits entering) hstep hflow
  | wait duration =>
      rw [execute, Effect.flow_plain] at hflow
      obtain ⟨hshort, rfl⟩ := waitStep_suspend hflow
      simp only [patience, waitStart.eq_def (now + step)]
      omega
  | fadeIn duration =>
      rw [execute, Effect.flow_plain] at hflow
      obtain ⟨hshort, rfl⟩ := fadeStep_suspend hflow
      simp only [patience, fadeStart.eq_def (now + step)]
      omega
  | fadeOut duration =>
      rw [execute, Effect.flow_plain] at hflow
      obtain ⟨hshort, rfl⟩ := fadeStep_suspend hflow
      simp only [patience, fadeStart.eq_def (now + step)]
      omega
  | waitForKey => cases hasks
  | selection first second => cases hasks
  | flagIf flag target inlined =>
      rw [execute, Effect.flow_plain] at hflow
      exact absurd hflow (flagIfStep_ne_suspend s)
  | flagExitIf flag =>
      rw [execute, Effect.flow_plain] at hflow
      split at hflow <;> cases hflow
  | flagOnce flag =>
      rw [execute, Effect.flow_plain] at hflow
      split at hflow <;> cases hflow
  | _ => cases hflow

end

end Cutscene
