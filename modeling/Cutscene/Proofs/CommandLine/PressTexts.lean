import Cutscene.CommandLine.Arguments
import Cutscene.Proofs.Text.Parts

/-!
# Presses as they are typed

A press is typed as a frame and a control around a colon, each with blanks around it if need be.
`PressAt.Written` is this form and `PressFault` tells what is wrong with every other text. A press
that is written is read (`PressAt.Written.readPress_eq`), a fault is told
(`PressFault.readPress_eq`), and every text is one or the other (`written_or_fault`). So `readPress`
accepts this form and nothing else (`press_read_iff`).
-/

namespace Cutscene

namespace Control

/-- All names of a control: its label, and the short ones. -/
def names : Control → List String
  | activate => ["activate"]
  | selectNext => ["select_next", "next"]
  | selectPrevious => ["select_previous", "prev", "previous"]

theorem label_mem_names (c : Control) : c.label ∈ c.names := by
  cases c <;> exact List.mem_cons_self

/-- A control is read from its names and from nothing else. -/
theorem parse?_eq_some_iff {name : String} {c : Control} :
    parse? name = some c ↔ name ∈ c.names := by
  constructor
  · intro h
    unfold parse? named? at h
    split_ifs at h <;> cases h <;> simp_all [names]
  · intro h
    cases c <;> simp only [names, List.mem_cons, List.not_mem_nil, or_false] at h
    · subst h
      rfl
    · rcases h with rfl | rfl <;> rfl
    · rcases h with rfl | rfl | rfl <;> rfl

end Control

namespace CommandLine

open Text

/-! ## The form of a press -/

/-- A press as it is printed. -/
def PressAt.text (p : PressAt) : String := s!"{p.frame}:{p.control.label}"

/-- The two sides of a colon as those of a press. -/
structure PressAt.WrittenAs (p : PressAt) (front back : String) : Prop where
  /-- The colon is the first. -/
  first : ':' ∉ front.toList
  frame : ∃ number, Trims front.toList number ∧ Numeral number p.frame ∧ p.frame < UInt64.size
  control : ∃ name ∈ p.control.names, Trims back.toList name.toList

/-- How a press is written. -/
def PressAt.Written (p : PressAt) (s : String) : Prop :=
  ∃ front back, s = front ++ ":" ++ back ∧ p.WrittenAs front back

/-- What is wrong with a text that is no press, and how that is told. -/
inductive PressFault : String → String → Prop
  /-- There is no colon. -/
  | colon {s : String} (missing : ':' ∉ s.toList) : PressFault s s!"expected FRAME:VALUE, got '{s}'"
  /-- In front of the colon there is no number, or one that does not fit. -/
  | frame {front back : String} (first : ':' ∉ front.toList)
      (bad : ∀ number n, Trims front.toList number → Numeral number n → UInt64.size ≤ n) :
      PressFault (front ++ ":" ++ back) s!"invalid frame number '{front}'"
  /-- Behind the colon there is no name of a control. -/
  | control {front back name : String} {number : List Char} {n : Nat} (first : ':' ∉ front.toList)
      (frame : Trims front.toList number ∧ Numeral number n ∧ n < UInt64.size)
      (trims : Trims back.toList name.toList) (unknown : ∀ c : Control, name ∉ c.names) :
      PressFault (front ++ ":" ++ back) s!"unknown control '{name}'"

/-! ## Reading -/

section

variable {s front back : String} {p : PressAt}

/-- What the reader does with the two sides of the first colon. -/
theorem readPress_of_colon (first : ':' ∉ front.toList) : readPress (front ++ ":" ++ back) =
    match readUnsigned UInt64.size (trimBlanks front.toList) with
    | .error _ => .error s!"invalid frame number '{front}'"
    | .ok frame =>
      match Control.parse? (trimmed back) with
      | some control => .ok ⟨frame, control⟩
      | none => .error s!"unknown control '{trimmed back}'" := by
  have hlist : (front ++ ":" ++ back).toList = front.toList ++ ':' :: back.toList := by simp
  rw [readPress, splitFrame, hlist, splitFirst?_append first]
  dsimp only
  rw [String.ofList_toList]
  cases readUnsigned UInt64.size (trimBlanks front.toList) <;> rfl

theorem trims_trimmed (s : String) : Trims s.toList (trimmed s).toList := by
  rw [trimmed, String.toList_ofList]
  exact trims_trimBlanks s.toList

theorem trimmed_eq_of_trims {name : String} (h : Trims back.toList name.toList) :
    trimmed back = name := by
  rw [trimmed, h.trimBlanks_eq, String.ofList_toList]

/-- A press that is written is read. -/
theorem PressAt.Written.readPress_eq (h : p.Written s) : readPress s = .ok p := by
  obtain ⟨front, back, rfl, first, ⟨number, htrims, hnumeral, hlt⟩, name, hname, hback⟩ := h
  rw [readPress_of_colon first, htrims.trimBlanks_eq,
    readUnsigned_eq_ok_iff.2 ⟨hnumeral, hlt⟩, trimmed_eq_of_trims hback]
  dsimp only
  rw [Control.parse?_eq_some_iff.2 hname]

/-- A fault is told. -/
theorem PressFault.readPress_eq {reason : String} (h : PressFault s reason) :
    readPress s = .error reason := by
  cases h with
  | colon missing => rw [readPress, splitFrame, splitFirst?_eq_none missing]
  | @frame front back first bad =>
      rw [readPress_of_colon first]
      cases hread : readUnsigned UInt64.size (trimBlanks front.toList) with
      | error fault => rfl
      | ok n =>
          obtain ⟨hnumeral, hlt⟩ := readUnsigned_eq_ok_iff.1 hread
          have hle := bad _ n (trims_trimBlanks front.toList) hnumeral
          exact absurd hlt (Nat.not_lt.2 hle)
  | @control front back name number n first frame trims unknown =>
      obtain ⟨htrims, hnumeral⟩ := frame
      have hparse : Control.parse? name = none := Option.eq_none_iff_forall_ne_some.2 fun c hc =>
        unknown c (Control.parse?_eq_some_iff.1 hc)
      rw [readPress_of_colon first, htrims.trimBlanks_eq, readUnsigned_eq_ok_iff.2 hnumeral,
        trimmed_eq_of_trims trims]
      dsimp only
      rw [hparse]

/-- The two sides of the first colon are those of a press, or something is wrong with one. -/
theorem written_or_fault_of_colon (first : ':' ∉ front.toList) (back : String) :
    (∃ p : PressAt, p.Written (front ++ ":" ++ back)) ∨
      ∃ reason, PressFault (front ++ ":" ++ back) reason := by
  have htrims : Trims front.toList (trimBlanks front.toList) := trims_trimBlanks front.toList
  cases hread : readUnsigned UInt64.size (trimBlanks front.toList) with
  | error fault =>
      refine .inr ⟨_, .frame first fun number n hnumber hnumeral => ?_⟩
      rw [hnumber.trimBlanks_eq] at hread
      by_contra hlt
      cases hread.symm.trans (readUnsigned_eq_ok_iff.2 ⟨hnumeral, Nat.not_le.1 hlt⟩)
  | ok n =>
      have hnumeral := readUnsigned_eq_ok_iff.1 hread
      cases hparse : Control.parse? (trimmed back) with
      | some c =>
          have hname : trimmed back ∈ c.names := Control.parse?_eq_some_iff.1 hparse
          exact .inl ⟨⟨n, c⟩, front, back, rfl, first, ⟨_, htrims, hnumeral⟩, _, hname,
            trims_trimmed back⟩
      | none =>
          refine .inr ⟨_, .control first ⟨htrims, hnumeral⟩ (trims_trimmed back) fun c hc => ?_⟩
          cases hparse.symm.trans (Control.parse?_eq_some_iff.2 hc)

/-- A text is a press, or something is wrong with it. -/
theorem written_or_fault (s : String) :
    (∃ p : PressAt, p.Written s) ∨ ∃ reason, PressFault s reason := by
  by_cases hcolon : ':' ∈ s.toList
  · obtain ⟨front, back, hs, hfirst⟩ := List.eq_append_cons_of_mem hcolon
    obtain rfl : s = String.ofList front ++ ":" ++ String.ofList back := by
      rw [← String.toList_inj]
      simp [hs]
    exact written_or_fault_of_colon (by rwa [String.toList_ofList]) _
  · exact .inr ⟨_, .colon hcolon⟩

theorem readPress_eq_ok_iff : readPress s = .ok p ↔ p.Written s := by
  refine ⟨fun h => ?_, PressAt.Written.readPress_eq⟩
  rcases written_or_fault s with ⟨p', hwritten⟩ | ⟨reason, hfault⟩
  · obtain rfl := Except.ok.inj (h.symm.trans hwritten.readPress_eq)
    exact hwritten
  · cases h.symm.trans hfault.readPress_eq

theorem readPress_eq_error_iff {reason : String} :
    readPress s = .error reason ↔ PressFault s reason := by
  refine ⟨fun h => ?_, PressFault.readPress_eq⟩
  rcases written_or_fault s with ⟨p', hwritten⟩ | ⟨reason', hfault⟩
  · cases h.symm.trans hwritten.readPress_eq
  · obtain rfl := Except.error.inj (h.symm.trans hfault.readPress_eq)
    exact hfault

/-- A frame is a number of 64 bits. -/
example : readPress "18446744073709551615:next" = .ok ⟨18446744073709551615, .selectNext⟩ ∧
    readPress "18446744073709551616:next" =
      .error "invalid frame number '18446744073709551616'" := by
  exact ⟨rfl, rfl⟩

/-! ## Printing -/

theorem isBlank_of_mem_label {c : Control} {d : Char} (hd : d ∈ c.label.toList) :
    isBlank d = false := by
  have hall : c.label.toList.all (!isBlank ·) = true := by
    cases c <;> rfl
  simpa using List.all_eq_true.1 hall d hd

/-- A press is written as it is printed. -/
theorem written_text (h : p.frame < UInt64.size) : p.Written p.text := by
  have hdigits : ∀ d ∈ Nat.toDigits 10 p.frame, d.isDigit = true := fun d hd =>
    Nat.isDigit_of_mem_toDigits (by decide) (by decide) hd
  have htext : p.text = String.ofList (Nat.toDigits 10 p.frame) ++ ":" ++ p.control.label := by
    simp [PressAt.text, toString, Nat.repr_eq_ofList_toDigits]
  refine ⟨_, _, htext, ?_, ⟨_, ?_, numeral_toDigits p.frame, h⟩, _,
    Control.label_mem_names p.control, trims_self fun d hd => isBlank_of_mem_label hd⟩
  · intro hcolon
    rw [String.toList_ofList] at hcolon
    exact absurd (hdigits ':' hcolon) (by decide)
  · rw [String.toList_ofList]
    exact trims_self fun d hd => isBlank_of_isDigit (hdigits d hd)

end

/-- A text is read as a press exactly if it is written like one, and as no other. Every other text
is an error that tells what is wrong with it. A press is read back from how it is printed. -/
theorem press_read_iff :
    (∀ s p, readPress s = .ok p ↔ p.Written s) ∧
    (∀ s, (∀ p : PressAt, ¬p.Written s) → ∃ reason, readPress s = .error reason) ∧
    (∀ s reason, readPress s = .error reason ↔ PressFault s reason) ∧
    ∀ (frame : UInt64) (c : Control),
      readPress (PressAt.text ⟨frame.toNat, c⟩) = .ok ⟨frame.toNat, c⟩ := by
  refine ⟨fun s p => readPress_eq_ok_iff, fun s hnone => ?_, fun s reason => readPress_eq_error_iff,
    fun frame c => (written_text frame.toNat_lt_size).readPress_eq⟩
  rcases written_or_fault s with ⟨p, hp⟩ | ⟨reason, hfault⟩
  · exact absurd hp (hnone p)
  · exact ⟨reason, hfault.readPress_eq⟩

/-- Blanks of any kind, a plus sign, leading zeros and a short name do no harm. A plus sign alone is
no number. -/
theorem press_read_iff_padded :
    readPress " +007\t:\u00a0prev\n" = .ok ⟨7, .selectPrevious⟩ ∧
      (∀ p : PressAt, ¬p.Written "+:prev") ∧ ∃ reason, readPress "+:prev" = .error reason := by
  obtain ⟨hok, herror, -⟩ := press_read_iff
  have hnone : ∀ p : PressAt, ¬p.Written "+:prev" := by
    intro p hp
    have hread : readPress "+:prev" = .error "invalid frame number '+'" := by rfl
    cases ((hok _ p).2 hp).symm.trans hread
  have hnumeral : Numeral ['+', '0', '0', '7'] (digitsValue ['0', '0', '7']) :=
    .signed (by simp) (by simp)
  refine ⟨(hok _ _).2 ⟨" +007\t", "\u00a0prev\n", by decide, by decide,
    ⟨_, trims_iff.2 (by decide), hnumeral, by decide⟩, "prev", by decide, trims_iff.2 (by decide)⟩,
    hnone, herror _ hnone⟩

end CommandLine

end Cutscene
