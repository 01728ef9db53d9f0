import Mathlib.Data.String.Basic
import Cutscene.Proofs.Json.Records
import Cutscene.Scene.Declaration

/-!
# Entries in the order of their names

A reader of entries sorts them by name and keeps the last of one name (`sorted_sortMembers`). What
it gives to a field of a record is still so when the record has been read
(`Draft.fields_invariant`), so the events that a scene declares are in the order of their names
(`SceneDeclaration.sorted_events`).
-/

namespace Cutscene.Json

variable {α : Type} {members : List (String × α)}

/-- The members are sorted by name, and no two have the same. -/
def Sorted (members : List (String × α)) : Prop := members.Pairwise fun m n => m.1 < n.1

theorem fst_mem_of_mem_insertMember {name : String} {value : α} {m : String × α}
    (h : m ∈ insertMember name value members) : m.1 = name ∨ ∃ n ∈ members, n.1 = m.1 := by
  induction members with
  | nil =>
      rw [insertMember, List.mem_singleton] at h
      exact .inl (congrArg Prod.fst h)
  | cons n ns ih =>
      rw [insertMember] at h
      split at h
      · rcases List.mem_cons.1 h with rfl | hm
        · exact .inl rfl
        · exact .inr ⟨m, List.mem_cons_of_mem _ hm, rfl⟩
      · split at h
        · rcases List.mem_cons.1 h with rfl | hm
          · exact .inl rfl
          · exact .inr ⟨m, hm, rfl⟩
        · rcases List.mem_cons.1 h with rfl | hm
          · exact .inr ⟨_, List.mem_cons_self, rfl⟩
          · rcases ih hm with heq | ⟨k, hk, heq⟩
            · exact .inl heq
            · exact .inr ⟨k, List.mem_cons_of_mem _ hk, heq⟩

theorem Sorted.insertMember (h : Sorted members) (name : String) (value : α) :
    Sorted (insertMember name value members) := by
  induction members with
  | nil => exact List.pairwise_singleton _ _
  | cons n ns ih =>
      obtain ⟨hfirst, hrest⟩ := List.pairwise_cons.1 h
      rw [Json.insertMember]
      split
      · rename_i heq
        exact List.pairwise_cons.2 ⟨fun m hm => heq ▸ hfirst m hm, hrest⟩
      · rename_i hne
        split
        · rename_i hlt
          refine List.pairwise_cons.2 ⟨fun m hm => ?_, h⟩
          rcases List.mem_cons.1 hm with rfl | hm
          · exact hlt
          · exact lt_trans hlt (hfirst m hm)
        · rename_i hnot
          have hgt : n.1 < name := lt_of_le_of_ne (not_lt.1 hnot) hne
          refine List.pairwise_cons.2 ⟨fun m hm => ?_, ih hrest⟩
          rcases fst_mem_of_mem_insertMember hm with heq | ⟨k, hk, heq⟩
          · exact heq ▸ hgt
          · exact heq ▸ hfirst k hk

theorem Sorted.distinct (h : Sorted members) : Distinct members :=
  List.pairwise_map.2 (h.imp ne_of_lt)

theorem Sorted.lt_of_getElem? (h : Sorted members) {i j : Nat} (hlt : i < j) {m n : String × α}
    (hm : members[i]? = some m) (hn : members[j]? = some n) : m.1 < n.1 := by
  obtain ⟨hi, rfl⟩ := List.getElem?_eq_some_iff.1 hm
  obtain ⟨hj, rfl⟩ := List.getElem?_eq_some_iff.1 hn
  exact List.pairwise_iff_getElem.1 h i j hi hj hlt

/-- Entries are sorted, in whatever order they were given. -/
theorem sorted_sortMembers (members : List (String × α)) : Sorted (sortMembers members) := by
  have hfold : ∀ sorted : List (String × α), Sorted sorted →
      Sorted (members.foldl (fun sorted m => insertMember m.1 m.2 sorted) sorted) := by
    induction members with
    | nil => exact fun _ h => h
    | cons m ms ih => exact fun sorted h => ih _ (h.insertMember m.1 m.2)
  exact hfold [] List.Pairwise.nil

/-! ## Reading a record -/

namespace Draft

theorem of_bind_eq_ok {ε β γ : Type} {x : Except ε β} {f : β → Except ε γ} {c : γ}
    (h : x >>= f = .ok c) : ∃ b, x = .ok b ∧ f b = .ok c := by
  cases x with
  | error e => cases h
  | ok b => exact ⟨b, rfl, h⟩

theorem foldlM_invariant {ε β γ : Type} {f : β → γ → Except ε β} {P : β → Prop}
    (hf : ∀ b x b', P b → f b x = .ok b' → P b') {xs : List γ} {b b' : β} (hb : P b)
    (h : xs.foldlM f b = .ok b') : P b' := by
  induction xs generalizing b with
  | nil => cases h; exact hb
  | cons x xs ih =>
      rw [List.foldlM_cons] at h
      cases hx : f b x with
      | error e => rw [hx] at h; cases h
      | ok next => rw [hx] at h; exact ih (hf b x next hb hx) h

/-- What every field that is read keeps is true of a record that has been read. -/
theorem fields_invariant {σ : Type} {names : List String} {read : σ → String → Draft → Read σ}
    {P : σ → Prop} (hread : ∀ s name d s', P s → read s name d = .ok s' → P s') {init s : σ}
    (hinit : P init) {d : Draft} (h : d.fields names read init = .ok s) : P s := by
  cases d with
  | object members stop =>
      unfold fields at h
      obtain ⟨⟨s', seen⟩, hfold, h⟩ := of_bind_eq_ok h
      obtain ⟨-, -, h⟩ := of_bind_eq_ok h
      cases h
      refine foldlM_invariant (P := fun b : σ × List String => P b.1) (fun b m b' hb hm => ?_)
        hinit hfold
      obtain ⟨n, hn, hm⟩ := of_bind_eq_ok hm
      split at hm
      · split at hm
        · cases hm
        · obtain ⟨next, hnext, hm⟩ := of_bind_eq_ok hm
          cases hm
          exact hread b.1 n m.2 next hb hnext
      · obtain ⟨-, -, hm⟩ := of_bind_eq_ok hm
        cases hm
        exact hb
  | array ds stop =>
      unfold fields at h
      obtain ⟨s', hfold, h⟩ := of_bind_eq_ok h
      split at h
      · cases h
      · obtain ⟨-, -, h⟩ := of_bind_eq_ok h
        cases h
        exact foldlM_invariant (fun b x b' hb hx => hread b x.1 x.2 b' hb hx) hinit hfold
  | scalar v => cases h
  | unfit flaw beyond => cases h

theorem sorted_entries {read : Draft → Read α} {d : Draft} (h : d.entries read = .ok members) :
    Sorted members := by
  cases d with
  | object parts stop =>
      obtain ⟨xs, -, h⟩ := of_bind_eq_ok h
      obtain ⟨-, -, h⟩ := of_bind_eq_ok h
      cases h
      exact sorted_sortMembers xs
  | array ds stop => cases h
  | scalar v => cases h
  | unfit flaw beyond => cases h

end Draft

end Cutscene.Json

namespace Cutscene.SceneDeclaration

open Json Draft

/-- Reading a field of a scene leaves the events in the order of their names. -/
theorem sorted_readField {f f' : Fields} {name : String} {d : Draft} (hsorted : Sorted f.events)
    (h : readField f name d = .ok f') : Sorted f'.events := by
  unfold readField at h
  split at h <;> obtain ⟨x, hx, h⟩ := of_bind_eq_ok h <;> cases h
  case h_2 => exact sorted_entries hx
  all_goals exact hsorted

/-- The events that a text declares are in the order of their names. -/
theorem sorted_events {text : String} {d : SceneDeclaration} (h : ofText text = .ok d) :
    Sorted d.events := by
  obtain ⟨d', hread, h⟩ := of_bind_eq_ok h
  obtain ⟨-, -, h⟩ := of_bind_eq_ok h
  cases h
  obtain ⟨f, hfields, hread⟩ := of_bind_eq_ok hread
  obtain ⟨name, -, hread⟩ := of_bind_eq_ok hread
  cases hread
  refine fields_invariant (P := fun f => Sorted f.events) (fun _ _ _ _ => sorted_readField) ?_
    hfields
  exact List.Pairwise.nil

end Cutscene.SceneDeclaration
