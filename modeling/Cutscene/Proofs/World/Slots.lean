import Mathlib.Data.List.Nodup
import Mathlib.Data.List.Perm.Basic
import Mathlib.Data.List.Range
import Cutscene.Arena

/-!
# The order of slots

An arena that is cleared vacates its slots upwards and then uses them downwards. So values that are
put into a cleared arena stand in its old slots in the reverse of the order in which they came; only
those for which no old slot is left stand in the order in which they came, behind the others. This
is `slotOrder`, and `toList_insertAll_clear` says that it is the order in which they are listed.

The invariant is that the vacant slots are the first ones and are used from the last one down
(`Packed`): putting values in and clearing keep it.
-/

namespace Cutscene

namespace Arena

variable {α β γ : Type}

/-- The handles that values get which are put in one after the other. -/
def handles (a : Arena α) : List α → List Handle
  | [] => []
  | x :: xs => (a.insert x).1 :: (a.insert x).2.handles xs

/-- The order in which values stand that have been put into `n` vacated slots and, when these were
used up, into new ones. -/
def slotOrder (n : Nat) (xs : List β) : List β := (xs.take n).reverse ++ xs.drop n

theorem slotOrder_perm (n : Nat) (xs : List β) : (slotOrder n xs).Perm xs := by
  have happ : (slotOrder n xs).Perm (xs.take n ++ xs.drop n) :=
    (List.reverse_perm _).append_right _
  rwa [List.take_append_drop] at happ

theorem slotOrder_map (f : β → γ) (n : Nat) (xs : List β) :
    slotOrder n (xs.map f) = (slotOrder n xs).map f := by
  simp [slotOrder]

@[simp] theorem length_handles (a : Arena α) (xs : List α) :
    (a.handles xs).length = xs.length := by
  induction xs generalizing a with
  | nil => rfl
  | cons x xs ih => simp [handles, ih]

/-! ## Packed arenas -/

/-- The first slots are vacant and are used from the last one down; the others are occupied. -/
structure Packed (a : Arena α) (vacant occupied : List (Slot α)) : Prop where
  slots : a.slots.toList = vacant ++ occupied
  vacant_eq_none : ∀ s ∈ vacant, s.value = none
  occupied_isSome : ∀ s ∈ occupied, s.value.isSome
  free : a.free = (List.range vacant.length).reverse

/-- The values of slots that are numbered from `n` on. -/
def listed (n : Nat) (slots : List (Slot α)) : List (Handle × α) :=
  (slots.zipIdx n).filterMap fun (s, i) => s.value.map fun x => (⟨i, s.generation⟩, x)

theorem listed_append (n : Nat) (slots slots' : List (Slot α)) :
    listed n (slots ++ slots') = listed n slots ++ listed (n + slots.length) slots' := by
  simp [listed, List.zipIdx_append]

theorem listed_of_vacant {slots : List (Slot α)} (h : ∀ s ∈ slots, s.value = none) (n : Nat) :
    listed n slots = [] := by
  rw [listed, List.filterMap_eq_nil_iff]
  rintro ⟨s, i⟩ hmem
  simp [h s (List.fst_mem_of_mem_zipIdx hmem)]

namespace Packed

variable {a : Arena α} {vacant occupied : List (Slot α)}

theorem empty : (empty : Arena α).Packed [] [] :=
  ⟨rfl, by simp, by simp, rfl⟩

theorem size (h : a.Packed vacant occupied) :
    a.slots.size = vacant.length + occupied.length := by
  rw [← Array.length_toList, h.slots, List.length_append]

/-- Only occupied slots are listed. -/
theorem toList_eq (h : a.Packed vacant occupied) :
    a.toList = listed vacant.length occupied := by
  show listed 0 a.slots.toList = _
  rw [h.slots, listed_append, listed_of_vacant h.vacant_eq_none, List.nil_append, Nat.zero_add]

/-- A value that is put in takes the last vacant slot and comes before all others. -/
theorem insert_vacant {s : Slot α} (h : a.Packed (vacant ++ [s]) occupied) (x : α) :
    (a.insert x).2.Packed vacant (⟨s.generation, some x⟩ :: occupied) ∧
      (a.insert x).2.toList = ((a.insert x).1, x) :: a.toList := by
  have hfree : a.free = vacant.length :: (List.range vacant.length).reverse := by
    rw [h.free, List.length_append, List.length_singleton, List.range_succ, List.reverse_append]
    rfl
  have hslot : a.slots[vacant.length]? = some s := by
    rw [← Array.getElem?_toList, h.slots]
    simp
  have hinsert : a.insert x = (⟨vacant.length, s.generation⟩,
      { slots := a.slots.setIfInBounds vacant.length ⟨s.generation, some x⟩
        free := (List.range vacant.length).reverse
        live := a.live + 1 }) := by
    unfold insert
    simp only [hfree, hslot]
    rfl
  have hpacked : (a.insert x).2.Packed vacant (⟨s.generation, some x⟩ :: occupied) := by
    rw [hinsert]
    refine ⟨?_, fun v hv => h.vacant_eq_none v (List.mem_append_left _ hv), ?_, rfl⟩
    · simp [Array.toList_setIfInBounds, h.slots]
    · simpa using h.occupied_isSome
  refine ⟨hpacked, ?_⟩
  have hs : s.value = none := h.vacant_eq_none s (by simp)
  rw [hpacked.toList_eq, h.toList_eq, hinsert, List.length_append, List.length_singleton]
  rfl

/-- Without a vacant slot a value takes a new one and comes after all others. -/
theorem insert_full (h : a.Packed [] occupied) (x : α) :
    (a.insert x).2.Packed [] (occupied ++ [⟨0, some x⟩]) ∧
      (a.insert x).2.toList = a.toList ++ [((a.insert x).1, x)] := by
  have hinsert : a.insert x = (⟨a.slots.size, 0⟩,
      { a with slots := a.slots.push ⟨0, some x⟩, live := a.live + 1 }) := by
    rw [insert, h.free]
    rfl
  have hpacked : (a.insert x).2.Packed [] (occupied ++ [⟨0, some x⟩]) := by
    rw [hinsert]
    refine ⟨?_, by simp, ?_, h.free⟩
    · simp [h.slots]
    · intro s hs
      rcases List.mem_append.mp hs with hs | hs
      · exact h.occupied_isSome s hs
      · rw [List.mem_singleton.mp hs]
        rfl
  refine ⟨hpacked, ?_⟩
  rw [hpacked.toList_eq, h.toList_eq, listed_append, hinsert]
  simp [listed, h.size]

/-- Values that are put in go down through the vacant slots and then on behind the others. -/
theorem toList_insertAll (h : a.Packed vacant occupied) (xs : List α) :
    (a.insertAll xs).toList =
      (((a.handles xs).zip xs).take vacant.length).reverse ++ a.toList ++
        ((a.handles xs).zip xs).drop vacant.length := by
  induction xs generalizing a vacant occupied with
  | nil => simp [insertAll, handles]
  | cons x xs ih =>
      show ((a.insert x).2.insertAll xs).toList = _
      rcases List.eq_nil_or_concat vacant with rfl | ⟨vacant, s, rfl⟩
      · obtain ⟨hpacked, hlist⟩ := h.insert_full x
        rw [ih hpacked, hlist]
        simp [handles]
      · rw [List.concat_eq_append] at h
        obtain ⟨hpacked, hlist⟩ := h.insert_vacant x
        rw [ih hpacked, hlist]
        simp [handles]

/-- Values that are put in leave an arena packed, with new slots for those that find no vacant
one. -/
theorem insertAll (h : a.Packed vacant occupied) (xs : List α) :
    ∃ vacant' occupied', (a.insertAll xs).Packed vacant' occupied' ∧
      vacant'.length + occupied'.length =
        max (vacant.length + occupied.length) (occupied.length + xs.length) := by
  induction xs generalizing a vacant occupied with
  | nil => exact ⟨vacant, occupied, h, by simp⟩
  | cons x xs ih =>
      show ∃ vacant' occupied', ((a.insert x).2.insertAll xs).Packed vacant' occupied' ∧ _
      rcases List.eq_nil_or_concat vacant with rfl | ⟨vacant, s, rfl⟩
      · obtain ⟨vacant', occupied', hpacked, hlength⟩ := ih (h.insert_full x).1
        refine ⟨vacant', occupied', hpacked, ?_⟩
        simp only [List.length_append, List.length_cons, List.length_nil] at hlength ⊢
        omega
      · rw [List.concat_eq_append] at h ⊢
        obtain ⟨vacant', occupied', hpacked, hlength⟩ := ih (h.insert_vacant x).1
        refine ⟨vacant', occupied', hpacked, ?_⟩
        simp only [List.length_append, List.length_cons, List.length_nil] at hlength ⊢
        omega

theorem range_size (h : a.Packed vacant occupied) :
    List.range a.slots.size =
      List.range vacant.length ++ List.range' vacant.length occupied.length := by
  have happend := @List.range'_append_1 0 vacant.length occupied.length
  rw [Nat.zero_add] at happend
  rw [h.size, List.range_eq_range', List.range_eq_range', happend]

theorem occupied_eq (h : a.Packed vacant occupied) :
    a.occupied = List.range' vacant.length occupied.length := by
  have hslot : ∀ i, a.slots[i]? = (vacant ++ occupied)[i]? := fun i => by
    rw [← h.slots, Array.getElem?_toList]
  have hvacant : (List.range vacant.length).filter
      (fun i => (a.slots[i]?.bind (·.value)).isSome) = [] := by
    rw [List.filter_eq_nil_iff]
    intro i hi
    have hi := List.mem_range.mp hi
    rw [hslot, List.getElem?_append_left hi, List.getElem?_eq_getElem hi]
    simp [h.vacant_eq_none _ (List.getElem_mem hi)]
  have hoccupied : (List.range' vacant.length occupied.length).filter
      (fun i => (a.slots[i]?.bind (·.value)).isSome) =
        List.range' vacant.length occupied.length := by
    rw [List.filter_eq_self]
    intro i hi
    obtain ⟨hle, hlt⟩ := List.mem_range'_1.mp hi
    have hi : i - vacant.length < occupied.length := by omega
    rw [hslot, List.getElem?_append_right hle, List.getElem?_eq_getElem hi]
    exact h.occupied_isSome _ (List.getElem_mem hi)
  rw [Arena.occupied, h.range_size, List.filter_append, hvacant, hoccupied, List.nil_append]

/-- A cleared arena has vacant slots only. -/
theorem clear (h : a.Packed vacant occupied) :
    a.clear.Packed (vacant ++ occupied.map Slot.vacate) [] := by
  have hslots : a.clear.slots.toList = vacant ++ occupied.map Slot.vacate := by
    unfold Arena.clear
    rw [Array.toList_map, h.slots, List.map_append]
    refine congrArg₂ _ ?_ (List.map_congr_left fun s hs => if_pos (h.occupied_isSome s hs))
    exact (List.map_congr_left fun s hs => by simp [h.vacant_eq_none s hs]).trans (List.map_id _)
  refine ⟨by rw [hslots, List.append_nil], ?_, by simp, ?_⟩
  · intro s hs
    rcases List.mem_append.mp hs with hs | hs
    · exact h.vacant_eq_none s hs
    · obtain ⟨s, -, rfl⟩ := List.mem_map.mp hs
      rfl
  · show a.occupied.reverse ++ a.free = _
    rw [h.occupied_eq, h.free, ← List.reverse_append, ← h.range_size, h.size]
    simp

end Packed

/-- What is put into a cleared arena is listed in the order of the slots that it gets. -/
theorem Packed.toList_insertAll_clear {a : Arena α} {vacant occupied : List (Slot α)}
    (h : a.Packed vacant occupied) (xs : List α) :
    (a.clear.insertAll xs).toList = slotOrder a.slots.size ((a.clear.handles xs).zip xs) := by
  have hsize : (vacant ++ occupied.map Slot.vacate).length = a.slots.size := by simp [h.size]
  rw [h.clear.toList_insertAll, h.clear.toList_eq, hsize]
  simp [listed, slotOrder]

/-! ## Handles -/

/-- No two values that are listed have the same handle. -/
theorem nodup_toList (a : Arena α) : (a.toList.map (·.1)).Nodup := by
  have hslots : (a.slots.toList.zipIdx.map (·.2)).Pairwise (· < ·) := by
    rw [List.zipIdx_map_snd]
    exact List.pairwise_lt_range'
  rw [List.Nodup, List.pairwise_map, toList, List.pairwise_filterMap]
  refine (List.pairwise_map.mp hslots).imp fun hlt x hx y hy heq => ?_
  obtain ⟨_, -, rfl⟩ := Option.map_eq_some_iff.mp hx
  obtain ⟨_, -, rfl⟩ := Option.map_eq_some_iff.mp hy
  exact absurd (congrArg Handle.index heq) (Nat.ne_of_lt hlt)

/-- Values that are put into a cleared arena get different handles. -/
theorem Packed.nodup_handles_clear {a : Arena α} {vacant occupied : List (Slot α)}
    (h : a.Packed vacant occupied) (xs : List α) : (a.clear.handles xs).Nodup := by
  have hperm := (slotOrder_perm a.slots.size ((a.clear.handles xs).zip xs)).map (·.1)
  rw [← h.toList_insertAll_clear, List.map_fst_zip (by simp)] at hperm
  exact hperm.nodup_iff.mp (nodup_toList _)

/-! ## What is found first -/

theorem countP_range_min {n k : Nat} {p : Nat → Bool} (hp : ∀ i, p i = true → i < k) :
    (List.range (min n k)).countP p = (List.range n).countP p := by
  obtain hle | ⟨d, rfl⟩ : n ≤ k ∨ ∃ d, n = k + d := by
    rcases Nat.le_total n k with h | h
    · exact .inl h
    · exact .inr ⟨n - k, by omega⟩
  · rw [Nat.min_eq_left hle]
  · have hrest : ((List.range d).map (k + ·)).countP p = 0 := by
      rw [List.countP_eq_zero]
      intro i hi hpi
      obtain ⟨j, -, rfl⟩ := List.mem_map.mp hi
      exact absurd (hp _ hpi) (by omega)
    rw [Nat.min_eq_right (Nat.le_add_right k d), List.range_add, List.countP_append, hrest,
      Nat.add_zero]

/-- The first number in the order of slots for which something holds is the first of all if and only
if it holds for at most one of those that are turned around. -/
theorem find?_slotOrder_range_iff {n k : Nat} {p : Nat → Bool} (hp : ∀ i, p i = true → i < k) :
    (slotOrder n (List.range k)).find? p = (List.range k).find? p ↔
      (List.range n).countP p ≤ 1 := by
  have hsplit : (List.range k).find? p =
      ((List.range (min n k)).find? p).or (((List.range k).drop n).find? p) := by
    rw [← List.find?_append, ← List.take_range, List.take_append_drop]
  rw [slotOrder, List.take_range, List.find?_append, hsplit, ← List.getLast?_filter,
    ← countP_range_min hp, List.countP_eq_length_filter,
    ← List.head?_filter (l := .range (min n k))]
  have hnodup : ((List.range (min n k)).filter p).Nodup := List.nodup_range.filter p
  match (List.range (min n k)).filter p, hnodup with
  | [], _ => simp
  | [i], _ => simp
  | i :: j :: rest, hnodup =>
      -- the first and the last of the numbers are different
      have hne : (j :: rest).getLast (List.cons_ne_nil j rest) ≠ i := fun heq =>
        (List.nodup_cons.mp hnodup).1 (heq ▸ List.getLast_mem _)
      simpa [List.getLast?_eq_some_getLast] using hne

/-- Where a value with a handle is found in the order of slots, its number is found in the order of
numbers. -/
theorem find?_slotOrder_zip {handles : List Handle} (hnodup : handles.Nodup) {xs : List α}
    (hlength : handles.length = xs.length) (n : Nat) (p : α → Bool) :
    ((slotOrder n (handles.zip xs)).find? fun x => p x.2).bind (handles.idxOf? ·.1) =
      (slotOrder n (List.range xs.length)).find? fun i => xs[i]?.any p := by
  have hvalues : handles.zip xs = (handles.zip xs).zipIdx.map (·.1) :=
    (List.zipIdx_map_fst ..).symm
  have hnumbers : List.range xs.length = (handles.zip xs).zipIdx.map (·.2) := by
    rw [List.zipIdx_map_snd, List.range_eq_range', List.length_zip, hlength, Nat.min_self]
  have hmem : ∀ x ∈ slotOrder n (handles.zip xs).zipIdx,
      handles[x.2]? = some x.1.1 ∧ xs[x.2]? = some x.1.2 := by
    intro x hx
    have hx := List.mem_zipIdx_iff_getElem?.mp ((slotOrder_perm n _).mem_iff.mp hx)
    exact List.getElem?_zip_eq_some.mp hx
  have hfind : (slotOrder n (handles.zip xs).zipIdx).find? (fun x => p x.1.2) =
      (slotOrder n (handles.zip xs).zipIdx).find? (fun x => xs[x.2]?.any p) := by
    rw [← List.head?_filter, ← List.head?_filter, List.filter_congr fun x hx => ?_]
    simp [(hmem x hx).2]
  rw [hnumbers, slotOrder_map, List.find?_map]
  conv_lhs => rw [hvalues, slotOrder_map, List.find?_map]
  show (((slotOrder n (handles.zip xs).zipIdx).find? (fun x => p x.1.2)).map _).bind _ =
    ((slotOrder n (handles.zip xs).zipIdx).find? (fun x => xs[x.2]?.any p)).map _
  rw [hfind]
  cases hfound : (slotOrder n (handles.zip xs).zipIdx).find? (fun x => xs[x.2]?.any p) with
  | none => rfl
  | some x =>
      have hx := hmem x (List.mem_of_find?_eq_some hfound)
      obtain ⟨hlt, hget⟩ := List.getElem?_eq_some_iff.mp hx.1
      have hindex : handles.idxOf? x.1.1 = some x.2 := by
        rw [List.idxOf?_eq_some_iff]
        refine ⟨hlt, hget, fun j hj heq => ?_⟩
        exact absurd ((hnodup.getElem_inj_iff).mp (heq.trans hget.symm)) (by omega)
      simpa using hindex
end Arena

end Cutscene
