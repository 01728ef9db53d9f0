import Mathlib.Data.List.Nodup
import Mathlib.Data.List.Perm.Basic
import Cutscene.Proofs.World.Slots
import Cutscene.Trigger

/-!
# Arenas as maps under handles

`Ledger` is an arena together with what has been done with it: every value that was put in, with the
handle it got, those of them that have been neither taken out nor cleared, and every vacation of a
slot. What an arena shows agrees with its ledger after anything that can be done (`Kept`). Taking a
value out and clearing are the same to it: some slots are vacated (`Vacates`).

The generation of a slot is the number of its vacations, in a word of 32 bits. So values get
different handles as long as no slot has been vacated as often as there are words
(`map_under_handles`).
-/

namespace Cutscene

namespace Arena

variable {α : Type}

/-! ## Slots and handles -/

theorem get?_eq_some_iff {a : Arena α} {h : Handle} {x : α} :
    a.get? h = some x ↔ a.slots[h.index]? = some ⟨h.generation, some x⟩ := by
  unfold get?
  cases hslot : a.slots[h.index]? with
  | none => simp
  | some s =>
      obtain ⟨generation, value⟩ := s
      by_cases hgeneration : generation = h.generation <;> simp [hgeneration]

theorem mem_toList_iff {a : Arena α} {h : Handle} {x : α} :
    (h, x) ∈ a.toList ↔ a.get? h = some x := by
  rw [get?_eq_some_iff, toList, List.mem_filterMap]
  constructor
  · rintro ⟨⟨s, i⟩, hmem, hvalue⟩
    obtain ⟨y, hy, heq⟩ := Option.map_eq_some_iff.mp hvalue
    obtain ⟨rfl, rfl⟩ := Prod.mk.inj heq
    have hslot := List.mem_zipIdx_iff_getElem?.mp hmem
    rw [Array.getElem?_toList] at hslot
    rw [hslot, ← hy]
  · intro hslot
    refine ⟨(⟨h.generation, some x⟩, h.index), ?_, rfl⟩
    rw [List.mem_zipIdx_iff_getElem?, Array.getElem?_toList]
    exact hslot

/-- A slot of an arena that a value is put into was there before or has the value. -/
theorem value_eq_or_getElem?_of_insert {a : Arena α} {x : α} {i : Nat} {s : Slot α}
    (h : (a.insert x).2.slots[i]? = some s) : s.value = some x ∨ a.slots[i]? = some s := by
  unfold insert at h
  split at h
  · rename_i j free hfree
    dsimp only at h
    rw [Array.getElem?_setIfInBounds] at h
    split at h
    · split at h
      · rw [← Option.some.inj h]
        exact .inl rfl
      · cases h
    · exact .inr h
  · dsimp only at h
    rw [Array.getElem?_push] at h
    split at h
    · rw [← Option.some.inj h]
      exact .inl rfl
    · exact .inr h

/-- What is listed after values have been put in is one of them or was listed before. -/
theorem mem_or_mem_of_insertAll {a : Arena α} {xs : List α} {y : Handle × α}
    (h : y ∈ (a.insertAll xs).toList) : y.2 ∈ xs ∨ y ∈ a.toList := by
  induction xs generalizing a with
  | nil => exact .inr h
  | cons x xs ih =>
      rcases ih (a := (a.insert x).2) h with hmem | hmem
      · exact .inl (List.mem_cons_of_mem x hmem)
      · rw [mem_toList_iff, get?_eq_some_iff] at hmem
        rcases value_eq_or_getElem?_of_insert hmem with hvalue | hslot
        · obtain rfl : y.2 = x := Option.some.inj hvalue
          exact .inl List.mem_cons_self
        · exact .inr (mem_toList_iff.mpr (get?_eq_some_iff.mpr hslot))

/-- A cleared arena lists nothing. -/
theorem toList_clear (a : Arena α) : a.clear.toList = [] := by
  rw [List.eq_nil_iff_forall_not_mem]
  intro y hmem
  rw [mem_toList_iff, get?_eq_some_iff, clear, Array.getElem?_map] at hmem
  obtain ⟨s, -, hs⟩ := Option.map_eq_some_iff.mp hmem
  split at hs
  · exact absurd (congrArg Slot.value hs) (by simp [Slot.vacate])
  · rename_i hnone
    rw [hs] at hnone
    exact hnone rfl

/-- What is put into a cleared arena is all that is listed. -/
theorem mem_of_mem_insertAll_clear {a : Arena α} {xs : List α} {y : Handle × α}
    (h : y ∈ (a.clear.insertAll xs).toList) : y.2 ∈ xs := by
  rcases mem_or_mem_of_insertAll h with hmem | hmem
  · exact hmem
  · rw [toList_clear] at hmem
    exact absurd hmem List.not_mem_nil

/-- A slot keeps its generation when values are put in. -/
theorem exists_getElem?_insertAll {a : Arena α} {i : Nat} {s : Slot α} (h : a.slots[i]? = some s)
    (xs : List α) : ∃ value, (a.insertAll xs).slots[i]? = some ⟨s.generation, value⟩ := by
  induction xs generalizing a s with
  | nil => exact ⟨s.value, h⟩
  | cons x xs ih =>
      have hinsert : ∃ value, (a.insert x).2.slots[i]? = some ⟨s.generation, value⟩ := by
        have hlt : i < a.slots.size := (Array.getElem?_eq_some_iff.mp h).1
        unfold insert
        split
        · rename_i j free hfree
          dsimp only
          rw [Array.getElem?_setIfInBounds]
          split
          · rename_i heq
            rw [heq, if_pos hlt, h]
            exact ⟨some x, rfl⟩
          · exact ⟨s.value, h⟩
        · dsimp only
          rw [Array.getElem?_push, if_neg (Nat.ne_of_lt hlt)]
          exact ⟨s.value, h⟩
      obtain ⟨value, hvalue⟩ := hinsert
      exact ih (s := ⟨s.generation, value⟩) hvalue

/-- A handle that stands for a value is stale once the arena has been cleared, whatever is put in
afterwards. -/
theorem isLive_insertAll_clear {a : Arena α} {h : Handle} (hlive : a.isLive h = true)
    (xs : List α) : (a.clear.insertAll xs).isLive h = false := by
  obtain ⟨x, hx⟩ := Option.isSome_iff_exists.mp hlive
  have hslot : a.clear.slots[h.index]? = some ⟨h.generation + 1, none⟩ := by
    rw [clear, Array.getElem?_map, get?_eq_some_iff.mp hx]
    rfl
  obtain ⟨value, hvalue⟩ := exists_getElem?_insertAll hslot xs
  have hne : h.generation + 1 ≠ h.generation := by simp
  rw [isLive, get?, hvalue]
  simp [hne]

theorem remove_fst (a : Arena α) (h : Handle) : (a.remove h).1 = a.get? h := by
  unfold remove
  cases a.get? h <;> rfl

theorem nodup_occupied (a : Arena α) : a.occupied.Nodup := List.nodup_range.filter _

theorem mem_occupied_iff {a : Arena α} {i : Nat} :
    i ∈ a.occupied ↔ ∃ g x, a.slots[i]? = some ⟨g, some x⟩ := by
  rw [occupied, List.mem_filter, List.mem_range]
  constructor
  · rintro ⟨-, hvalue⟩
    obtain ⟨x, hx⟩ := Option.isSome_iff_exists.mp hvalue
    obtain ⟨s, hs, hvalue⟩ := Option.bind_eq_some_iff.mp hx
    exact ⟨s.generation, x, by rw [hs, ← hvalue]⟩
  · rintro ⟨g, x, hslot⟩
    refine ⟨(Array.getElem?_eq_some_iff.mp hslot).1, ?_⟩
    rw [hslot]
    rfl

theorem perm_occupied {a : Arena α} {is : List Nat} (hnodup : is.Nodup)
    (hmem : ∀ i, i ∈ is ↔ i ∈ a.occupied) : is.Perm a.occupied :=
  (List.perm_ext_iff_of_nodup hnodup a.nodup_occupied).mpr hmem

/-! ## Tidy arenas -/

/-- The free list has every vacant slot once, and the occupied slots have been counted. -/
structure Tidy (a : Arena α) : Prop where
  nodup : a.free.Nodup
  mem_iff : ∀ i, i ∈ a.free ↔ ∃ g, a.slots[i]? = some ⟨g, none⟩
  live : a.live = a.occupied.length

theorem Tidy.notMem_occupied {a : Arena α} (ht : a.Tidy) {i : Nat} (hi : i ∈ a.free) :
    i ∉ a.occupied := by
  obtain ⟨g, hslot⟩ := (ht.mem_iff i).mp hi
  rintro hocc
  obtain ⟨g', x, hslot'⟩ := mem_occupied_iff.mp hocc
  rw [hslot] at hslot'
  simp at hslot'

/-- A value has come into a vacant slot or into a new one, and every other slot is as it was. -/
structure Fills (h : Handle) (x : α) (a a' : Arena α) : Prop where
  was : a.slots[h.index]? = some ⟨h.generation, none⟩ ∨
    a.slots[h.index]? = none ∧ h.generation = 0
  slot : a'.slots[h.index]? = some ⟨h.generation, some x⟩
  other : ∀ j, j ≠ h.index → a'.slots[j]? = a.slots[j]?
  nodup : a'.free.Nodup
  free : ∀ j, j ∈ a'.free ↔ j ∈ a.free ∧ j ≠ h.index
  live : a'.live = a.live + 1

namespace Fills

variable {a a' : Arena α} {h : Handle} {x : α}

theorem notMem_occupied (hf : Fills h x a a') : h.index ∉ a.occupied := by
  rw [mem_occupied_iff]
  rintro ⟨g, y, hslot⟩
  rcases hf.was with hwas | ⟨hwas, -⟩ <;> simp [hslot] at hwas

/-- One slot has been occupied in addition. -/
theorem perm (hf : Fills h x a a') : (h.index :: a.occupied).Perm a'.occupied := by
  refine perm_occupied (List.nodup_cons.mpr ⟨hf.notMem_occupied, a.nodup_occupied⟩) fun i => ?_
  rw [List.mem_cons]
  by_cases hi : i = h.index
  · rw [hi]
    exact iff_of_true (.inl rfl) (mem_occupied_iff.mpr ⟨_, _, hf.slot⟩)
  · rw [mem_occupied_iff, mem_occupied_iff, hf.other i hi]
    exact or_iff_right hi

theorem tidy (hf : Fills h x a a') (ht : a.Tidy) : a'.Tidy where
  nodup := hf.nodup
  mem_iff i := by
    rw [hf.free i, ht.mem_iff i]
    by_cases hi : i = h.index
    · simp [hi, hf.slot]
    · simp [hi, hf.other i hi]
  live := by rw [hf.live, ht.live, ← hf.perm.length_eq, List.length_cons]

end Fills

theorem fills_insert {a : Arena α} (ht : a.Tidy) (x : α) :
    Fills (a.insert x).1 x a (a.insert x).2 := by
  unfold insert
  cases hfree : a.free with
  | nil =>
      refine ⟨.inr ⟨by simp, rfl⟩, by simp, fun j hj => ?_, List.nodup_nil, by simp [hfree], rfl⟩
      exact (Array.getElem?_push ..).trans (if_neg hj)
  | cons i free =>
      obtain ⟨g, hvacant⟩ := (ht.mem_iff i).mp (hfree ▸ List.mem_cons_self)
      obtain ⟨hnotMem, hnodup⟩ := List.nodup_cons.mp (hfree ▸ ht.nodup)
      have hlt := (Array.getElem?_eq_some_iff.mp hvacant).1
      simp only [hvacant, Option.map_some, Option.getD_some]
      refine ⟨.inl hvacant, by simp [hlt], fun j hj => ?_, hnodup, fun j => ?_, rfl⟩
      · exact Array.getElem?_setIfInBounds_ne (Ne.symm hj)
      · rw [hfree, List.mem_cons]
        constructor
        · rintro hj
          exact ⟨.inr hj, by rintro rfl; exact hnotMem hj⟩
        · exact fun ⟨hj, hne⟩ => hj.resolve_left hne

/-- The values of some slots have been taken out, and every other slot is as it was. -/
structure Vacates (slots : List Nat) (a a' : Arena α) : Prop where
  nodup : slots.Nodup
  occupied : ∀ i ∈ slots, i ∈ a.occupied
  getElem? : ∀ j, a'.slots[j]? = if j ∈ slots then a.slots[j]?.map Slot.vacate else a.slots[j]?
  free : a'.free.Perm (slots ++ a.free)
  live : a'.live = a.live - slots.length

namespace Vacates

variable {a a' : Arena α} {slots : List Nat}

theorem mem_occupied_iff (hv : Vacates slots a a') {i : Nat} :
    i ∈ a'.occupied ↔ i ∈ a.occupied ∧ i ∉ slots := by
  rw [Arena.mem_occupied_iff, Arena.mem_occupied_iff, hv.getElem? i]
  by_cases hi : i ∈ slots
  · rw [if_pos hi]
    simp [hi, Slot.vacate]
  · rw [if_neg hi]
    simp [hi]

/-- What was occupied is occupied still or has been vacated. -/
theorem perm (hv : Vacates slots a a') : (slots ++ a'.occupied).Perm a.occupied := by
  refine perm_occupied ?_ fun i => ?_
  · rw [List.nodup_append']
    exact ⟨hv.nodup, a'.nodup_occupied, fun i hi hi' => (hv.mem_occupied_iff.mp hi').2 hi⟩
  · rw [List.mem_append, hv.mem_occupied_iff]
    have := hv.occupied i
    tauto

theorem tidy (hv : Vacates slots a a') (ht : a.Tidy) : a'.Tidy where
  nodup := by
    rw [hv.free.nodup_iff, List.nodup_append']
    exact ⟨hv.nodup, ht.nodup, fun i hi hfree => ht.notMem_occupied hfree (hv.occupied i hi)⟩
  mem_iff i := by
    rw [hv.free.mem_iff, List.mem_append, ht.mem_iff, hv.getElem? i]
    by_cases hi : i ∈ slots
    · obtain ⟨g, x, hslot⟩ := Arena.mem_occupied_iff.mp (hv.occupied i hi)
      simp [hi, hslot, Slot.vacate]
    · simp [hi]
  live := by
    have hlength := hv.perm.length_eq
    rw [List.length_append] at hlength
    rw [hv.live, ht.live]
    omega

end Vacates

theorem vacates_remove {a : Arena α} {h : Handle} {x : α} (hget : a.get? h = some x) :
    Vacates [h.index] a (a.remove h).2 := by
  have hslot := get?_eq_some_iff.mp hget
  have hremove : (a.remove h).2 =
      { slots := a.slots.modify h.index Slot.vacate, free := h.index :: a.free,
        live := a.live - 1 } := by
    rw [remove, hget]
  rw [hremove]
  refine ⟨List.nodup_singleton _, fun i hi => ?_, fun j => ?_, .refl _, rfl⟩
  · rw [List.mem_singleton.mp hi]
    exact mem_occupied_iff.mpr ⟨_, _, hslot⟩
  · rw [Array.getElem?_modify]
    simp only [List.mem_singleton, eq_comm]

theorem vacates_clear {a : Arena α} (ht : a.Tidy) : Vacates a.occupied a a.clear where
  nodup := a.nodup_occupied
  occupied _ hi := hi
  getElem? j := by
    show (a.slots.map _)[j]? = _
    rw [Array.getElem?_map]
    cases hslot : a.slots[j]? with
    | none => simp
    | some s =>
        have hocc : j ∈ a.occupied ↔ s.value.isSome = true := by
          obtain ⟨g, value⟩ := s
          rw [mem_occupied_iff, hslot]
          cases value <;> simp
        by_cases hs : s.value.isSome = true
        · rw [if_pos (hocc.mpr hs), Option.map_some, if_pos hs, Option.map_some]
        · rw [if_neg (mt hocc.mp hs), Option.map_some, if_neg hs]
  free := (List.reverse_perm _).append_right _
  live := by
    rw [← ht.live, Nat.sub_self]
    rfl

/-! ## Ledgers -/

/-- What can be done with an arena. -/
inductive Act (α : Type) where
  | insert (x : α)
  /-- Through any handle, one that stands for nothing included. -/
  | remove (h : Handle)
  | clear

/-- An arena and what has been done with it. -/
structure Ledger (α : Type) where
  arena : Arena α
  /-- The values that were put in, each with the handle that it got. -/
  issued : List (Handle × α)
  /-- Those that have been neither taken out through their handles nor cleared. -/
  live : List (Handle × α)
  /-- The slots that had a value and lost it, each as often as this happened. -/
  vacated : List Nat

namespace Ledger

def opening : Ledger α := ⟨Arena.empty, [], [], []⟩

/-- A ledger after a step that puts nothing in. -/
def leave (l : Ledger α) (a : Arena α) (stays : Handle → Bool) : Ledger α :=
  { l with
    arena := a
    live := l.live.filter fun e => stays e.1
    vacated := l.vacated ++ l.arena.occupied.filter fun i => i ∉ a.occupied }

def act (l : Ledger α) : Act α → Ledger α
  | .insert x =>
    let (h, a) := l.arena.insert x
    { l with arena := a, issued := l.issued ++ [(h, x)], live := l.live ++ [(h, x)] }
  | .remove h => l.leave (l.arena.remove h).2 fun h' => h' ≠ h
  | .clear => l.leave l.arena.clear fun _ => false

def run (acts : List (Act α)) : Ledger α := acts.foldl act opening

theorem run_concat (acts : List (Act α)) (act : Act α) :
    run (acts ++ [act]) = (run acts).act act := by
  simp [run]

/-- What an arena shows agrees with its ledger. -/
structure Kept (l : Ledger α) : Prop where
  tidy : l.arena.Tidy
  lookup : ∀ h x, l.arena.get? h = some x ↔ (h, x) ∈ l.live
  apart : (l.live.map (·.1.index)).Nodup
  generation : ∀ i s, l.arena.slots[i]? = some s → s.generation = UInt32.ofNat (l.vacated.count i)
  unused : ∀ i, l.arena.slots[i]? = none → l.vacated.count i = 0
  /-- The values of a slot are numbered in the order in which they came, and the generation of a
  value is its number in a word. -/
  numbered : ∃ numbers : List (Nat × Nat), numbers.Nodup ∧
    l.issued.map (·.1) = numbers.map (fun n => ⟨n.1, UInt32.ofNat n.2⟩) ∧
    ∀ n ∈ numbers, n.2 < (l.vacated ++ l.arena.occupied).count n.1

namespace Kept

variable {l : Ledger α} {a : Arena α}

theorem opening : (opening : Ledger α).Kept where
  tidy := ⟨List.nodup_nil, by simp [Ledger.opening, Arena.empty], rfl⟩
  lookup h x := by simp [Ledger.opening, Arena.empty, get?]
  apart := List.nodup_nil
  generation := by simp [Ledger.opening, Arena.empty]
  unused _ _ := rfl
  numbered := ⟨[], List.nodup_nil, rfl, by simp⟩

theorem index_mem_occupied (hk : l.Kept) {h : Handle} {x : α} (hmem : (h, x) ∈ l.live) :
    h.index ∈ l.arena.occupied :=
  mem_occupied_iff.mpr ⟨_, x, get?_eq_some_iff.mp ((hk.lookup h x).mpr hmem)⟩

/-- The occupied slots are those of the values that are live. -/
theorem perm_occupied (hk : l.Kept) : (l.live.map (·.1.index)).Perm l.arena.occupied := by
  refine Arena.perm_occupied hk.apart fun i => ⟨fun hi => ?_, fun hi => ?_⟩
  · obtain ⟨e, he, rfl⟩ := List.mem_map.mp hi
    exact hk.index_mem_occupied he
  · obtain ⟨g, x, hslot⟩ := mem_occupied_iff.mp hi
    exact List.mem_map_of_mem ((hk.lookup ⟨i, g⟩ x).mp (get?_eq_some_iff.mpr hslot))

/-- A value that is put in gets the number of the vacations of its slot. -/
theorem generation_of_fills (hk : l.Kept) {h : Handle} {x : α} (hf : Fills h x l.arena a) :
    h.generation = UInt32.ofNat (l.vacated.count h.index) := by
  rcases hf.was with hwas | ⟨hwas, hzero⟩
  · exact hk.generation _ ⟨h.generation, none⟩ hwas
  · rw [hzero, hk.unused _ hwas]
    rfl

theorem fill (hk : l.Kept) {h : Handle} {x : α} (hf : Fills h x l.arena a) :
    ({ l with arena := a, issued := l.issued ++ [(h, x)], live := l.live ++ [(h, x)] } :
      Ledger α).Kept where
  tidy := hf.tidy hk.tidy
  lookup h' y := by
    show a.get? h' = some y ↔ (h', y) ∈ l.live ++ [(h, x)]
    rw [List.mem_append, List.mem_singleton, ← hk.lookup, get?_eq_some_iff, get?_eq_some_iff]
    by_cases hindex : h'.index = h.index
    · have hnone : l.arena.slots[h'.index]? ≠ some ⟨h'.generation, some y⟩ := fun hslot =>
        hf.notMem_occupied (hindex ▸ mem_occupied_iff.mpr ⟨_, _, hslot⟩)
      obtain ⟨index, generation⟩ := h
      obtain ⟨index', generation'⟩ := h'
      obtain rfl : index' = index := hindex
      rw [or_iff_right hnone, hf.slot]
      simp [eq_comm]
    · rw [hf.other _ hindex]
      exact (or_iff_left fun heq => hindex (congrArg (·.1.index) heq)).symm
  apart := by
    rw [List.map_append, List.nodup_append']
    refine ⟨hk.apart, List.nodup_singleton _, fun i hi hnew => ?_⟩
    obtain ⟨⟨h', y⟩, hmem, rfl⟩ := List.mem_map.mp hi
    have heq : h'.index = h.index := List.mem_singleton.mp hnew
    exact hf.notMem_occupied (heq ▸ hk.index_mem_occupied hmem)
  generation i s hslot := by
    by_cases hi : i = h.index
    · subst hi
      obtain rfl := Option.some.inj (hf.slot.symm.trans hslot)
      exact hk.generation_of_fills hf
    · exact hk.generation i s (hf.other i hi ▸ hslot)
  unused i hslot := by
    have hi : i ≠ h.index := by
      rintro rfl
      simp [hf.slot] at hslot
    exact hk.unused i (hf.other i hi ▸ hslot)
  numbered := by
    obtain ⟨numbers, hnodup, hissued, hlt⟩ := hk.numbered
    have hnew : (l.vacated ++ l.arena.occupied).count h.index = l.vacated.count h.index := by
      rw [List.count_append, List.count_eq_zero.mpr hf.notMem_occupied, Nat.add_zero]
    have hcount : ∀ i, (l.vacated ++ a.occupied).count i =
        (l.vacated ++ l.arena.occupied).count i + if h.index = i then 1 else 0 := fun i => by
      rw [List.count_append, ← hf.perm.count_eq, List.count_cons, List.count_append,
        ← Nat.add_assoc]
      simp
    refine ⟨numbers ++ [(h.index, l.vacated.count h.index)], ?_, ?_, fun n hn => ?_⟩
    · rw [List.nodup_append']
      refine ⟨hnodup, List.nodup_singleton _, fun n hn hlast => ?_⟩
      have hn := hlt n hn
      rw [List.mem_singleton.mp hlast, hnew] at hn
      exact Nat.lt_irrefl _ hn
    · rw [List.map_append, List.map_append, hissued, List.map_singleton, List.map_singleton,
        ← hk.generation_of_fills hf]
    · show n.2 < (l.vacated ++ a.occupied).count n.1
      rw [hcount]
      rcases List.mem_append.mp hn with hn | hn
      · exact Nat.lt_add_right _ (hlt n hn)
      · rw [List.mem_singleton.mp hn, hnew, if_pos rfl]
        exact Nat.lt_succ_self _

theorem insert (hk : l.Kept) (x : α) : (l.act (.insert x)).Kept :=
  hk.fill (fills_insert hk.tidy x)

/-- Values leave by their slots being vacated. -/
theorem leave (hk : l.Kept) {slots : List Nat} (hv : Vacates slots l.arena a)
    {stays : Handle → Bool} (hstays : ∀ e ∈ l.live, stays e.1 = true ↔ e.1.index ∉ slots) :
    (l.leave a stays).Kept := by
  have hlost : (l.arena.occupied.filter fun i => i ∉ a.occupied).Perm slots := by
    rw [List.perm_ext_iff_of_nodup ((nodup_occupied _).filter _) hv.nodup]
    intro i
    have hocc := hv.occupied i
    rw [List.mem_filter, decide_eq_true_eq, hv.mem_occupied_iff]
    tauto
  have hcount : ∀ i, (l.leave a stays).vacated.count i =
      l.vacated.count i + if i ∈ slots then 1 else 0 := fun i => by
    show (l.vacated ++ _).count i = _
    rw [List.count_append, hlost.count_eq, hv.nodup.count]
  refine ⟨hv.tidy hk.tidy, fun h x => ?_, ?_, fun i s hslot => ?_, fun i hslot => ?_, ?_⟩
  · show a.get? h = some x ↔ (h, x) ∈ l.live.filter fun e => stays e.1
    rw [List.mem_filter, get?_eq_some_iff, hv.getElem? h.index]
    by_cases hmem : h.index ∈ slots
    · rw [if_pos hmem]
      refine iff_of_false ?_ fun ⟨hlive, hs⟩ => (hstays _ hlive).mp hs hmem
      simp [Slot.vacate]
    · rw [if_neg hmem, ← get?_eq_some_iff, hk.lookup]
      exact (and_iff_left_of_imp fun hlive => (hstays _ hlive).mpr hmem).symm
  · exact hk.apart.sublist (List.filter_sublist.map _)
  · rw [hcount]
    replace hslot : a.slots[i]? = some s := hslot
    rw [hv.getElem? i] at hslot
    by_cases hmem : i ∈ slots
    · rw [if_pos hmem] at hslot ⊢
      obtain ⟨s, hs, rfl⟩ := Option.map_eq_some_iff.mp hslot
      rw [UInt32.ofNat_add, ← hk.generation i s hs]
      rfl
    · rw [if_neg hmem] at hslot ⊢
      exact hk.generation i s hslot
  · rw [hcount]
    replace hslot : a.slots[i]? = none := hslot
    rw [hv.getElem? i] at hslot
    by_cases hmem : i ∈ slots
    · obtain ⟨g, x, hs⟩ := mem_occupied_iff.mp (hv.occupied i hmem)
      simp [hmem, hs] at hslot
    · rw [if_neg hmem] at hslot ⊢
      exact hk.unused i hslot
  · -- a vacated slot has had as many values as it had when it was occupied
    obtain ⟨numbers, hnodup, hissued, hlt⟩ := hk.numbered
    refine ⟨numbers, hnodup, hissued, fun n hn => ?_⟩
    have hsame : ((l.leave a stays).vacated ++ a.occupied).count n.1 =
        (l.vacated ++ l.arena.occupied).count n.1 := by
      rw [List.count_append, hcount, List.count_append, ← hv.perm.count_eq, List.count_append,
        hv.nodup.count, Nat.add_assoc]
    exact hsame ▸ hlt n hn

theorem remove (hk : l.Kept) (h : Handle) : (l.act (.remove h)).Kept := by
  show (l.leave (l.arena.remove h).2 fun h' => h' ≠ h).Kept
  cases hget : l.arena.get? h with
  | none =>
      have hsame : (l.arena.remove h).2 = l.arena := by rw [Arena.remove, hget]
      rw [hsame]
      have hnothing : Vacates [] l.arena l.arena :=
        ⟨List.nodup_nil, by simp, by simp, .refl _, rfl⟩
      refine hk.leave hnothing fun e he => ?_
      have hne : e.1 ≠ h := by
        rintro rfl
        simp [(hk.lookup e.1 e.2).mpr he] at hget
      simp [hne]
  | some x =>
      refine hk.leave (vacates_remove hget) fun e he => ?_
      have hslot : e.1.index = h.index ↔ e.1 = h := by
        refine ⟨fun hindex => ?_, congrArg _⟩
        have heq := List.inj_on_of_nodup_map hk.apart he ((hk.lookup h x).mp hget) hindex
        rw [heq]
      simp [hslot]

theorem clear (hk : l.Kept) : (l.act .clear).Kept := by
  show (l.leave l.arena.clear fun _ => false).Kept
  exact hk.leave (vacates_clear hk.tidy) fun e he => by simpa using hk.index_mem_occupied he

theorem run (acts : List (Act α)) : (run acts).Kept := by
  induction acts using List.reverseRecOn with
  | nil => exact opening
  | append_singleton acts act ih =>
      rw [run_concat]
      cases act with
      | insert x => exact ih.insert x
      | remove h => exact ih.remove h
      | clear => exact ih.clear

/-- What is listed is what is live. -/
theorem perm_toList (hk : l.Kept) : l.arena.toList.Perm l.live := by
  rw [List.perm_ext_iff_of_nodup (nodup_toList _).of_map (List.Nodup.of_map _ hk.apart)]
  intro ⟨h, x⟩
  rw [mem_toList_iff, hk.lookup]

/-- No two of the values that were put in got the same handle, unless a slot has been vacated as
often as there are words. -/
theorem nodup_issued (hk : l.Kept) (hbound : ∀ i, l.vacated.count i < UInt32.size) :
    (l.issued.map (·.1)).Nodup := by
  obtain ⟨numbers, hnodup, hissued, hlt⟩ := hk.numbered
  have hword : ∀ n ∈ numbers, n.2 < UInt32.size := fun n hn => by
    have hone := List.nodup_iff_count_le_one.mp (nodup_occupied l.arena) n.1
    have hn := hlt n hn
    have hcount := hbound n.1
    rw [List.count_append] at hn
    omega
  rw [hissued]
  refine hnodup.map_on fun n hn m hm heq => ?_
  have hindex : n.1 = m.1 := congrArg Handle.index heq
  have hgeneration : UInt32.ofNat n.2 = UInt32.ofNat m.2 := congrArg Handle.generation heq
  have hnumber := congrArg UInt32.toNat hgeneration
  rw [UInt32.toNat_ofNat_of_lt' (hword n hn), UInt32.toNat_ofNat_of_lt' (hword m hm)] at hnumber
  exact Prod.ext hindex hnumber

end Kept

/-- A handle was returned for a value that has not been taken out through it or cleared since. -/
def Stands (acts : List (Act α)) (h : Handle) (x : α) : Prop :=
  ∃ before after, acts = before ++ .insert x :: after ∧
    ((run before).arena.insert x).1 = h ∧ .remove h ∉ after ∧ .clear ∉ after

theorem stands_concat_iff {acts : List (Act α)} {act : Act α} {h : Handle} {x : α} :
    Stands (acts ++ [act]) h x ↔
      act = .insert x ∧ ((run acts).arena.insert x).1 = h ∨
        Stands acts h x ∧ act ≠ .remove h ∧ act ≠ .clear := by
  constructor
  · rintro ⟨before, after, heq, hissued, hremove, hclear⟩
    rcases List.eq_nil_or_concat after with rfl | ⟨after, last, rfl⟩
    · obtain ⟨rfl, hlast⟩ := List.append_inj' heq rfl
      exact .inl ⟨List.head_eq_of_cons_eq hlast, hissued⟩
    · rw [List.concat_eq_append, ← List.cons_append, ← List.append_assoc] at heq
      obtain ⟨rfl, hlast⟩ := List.append_inj' heq rfl
      obtain rfl := List.head_eq_of_cons_eq hlast
      rw [List.concat_eq_append, List.mem_append, List.mem_singleton, not_or] at hremove hclear
      exact .inr ⟨⟨before, after, rfl, hissued, hremove.1, hclear.1⟩, Ne.symm hremove.2,
        Ne.symm hclear.2⟩
  · rintro (⟨rfl, hissued⟩ | ⟨⟨before, after, rfl, hissued, hremove, hclear⟩, hne, hne'⟩)
    · exact ⟨acts, [], rfl, hissued, List.not_mem_nil, List.not_mem_nil⟩
    · refine ⟨before, after ++ [act], by simp, hissued, ?_, ?_⟩
      · simpa [hremove] using Ne.symm hne
      · simpa [hclear] using Ne.symm hne'

/-- The values that are live are those whose handles stand for them. -/
theorem mem_live_iff {acts : List (Act α)} {h : Handle} {x : α} :
    (h, x) ∈ (run acts).live ↔ Stands acts h x := by
  induction acts using List.reverseRecOn with
  | nil =>
      refine iff_of_false List.not_mem_nil ?_
      rintro ⟨before, after, heq, -⟩
      simp at heq
  | append_singleton acts act ih =>
      rw [run_concat, stands_concat_iff, ← ih]
      cases act with
      | insert y =>
          show (h, x) ∈ (run acts).live ++ [(_, y)] ↔ _
          rw [List.mem_append, List.mem_singleton, Prod.mk.injEq]
          simp only [Act.insert.injEq, ne_eq, reduceCtorEq, not_false_eq_true, and_true]
          constructor
          · rintro (hmem | ⟨rfl, rfl⟩)
            · exact .inr hmem
            · exact .inl ⟨rfl, rfl⟩
          · rintro (⟨rfl, rfl⟩ | hmem)
            · exact .inr ⟨rfl, rfl⟩
            · exact .inl hmem
      | remove h' =>
          show (h, x) ∈ (run acts).live.filter (fun e => e.1 ≠ h') ↔ _
          simp [@eq_comm _ h' h]
      | clear =>
          show (h, x) ∈ (run acts).live.filter (fun _ => false) ↔ _
          simp

end Ledger

open Ledger

/-- Triggers that have been put into an arena are found under their handles until they leave. -/
structure MapsHandles {ε : Type} (acts : List (Act (Trigger ε))) : Prop where
  get?_iff : ∀ h t, (run acts).arena.get? h = some t ↔ Stands acts h t
  isLive_iff : ∀ h, (run acts).arena.isLive h = true ↔ ∃ t, Stands acts h t
  remove_iff : ∀ h t, ((run acts).arena.remove h).1 = some t ↔ Stands acts h t
  /-- No two triggers that were ever put in got the same handle. -/
  issued : ((run acts).issued.map (·.1)).Nodup
  /-- The live triggers are those whose handles stand for them, each of them once. -/
  live : (run acts).live.Nodup ∧ ∀ h t, (h, t) ∈ (run acts).live ↔ Stands acts h t
  count : (run acts).arena.live = (run acts).live.length
  length_toList : (run acts).arena.toList.length = (run acts).live.length
  toList : (run acts).arena.toList.Perm (run acts).live
  hits : ∀ kind p, ((run acts).arena.hits kind p).Perm
    ((run acts).live.filter fun e => e.2.kind = kind && e.2.area.contains p)
  free : (run acts).arena.free.Nodup ∧
    ∀ i, i ∈ (run acts).arena.free ↔ ∃ g, (run acts).arena.slots[i]? = some ⟨g, none⟩

/-- An arena of triggers is a map under the handles that it gives out, whatever is put in, taken out
through handles that may be stale, and cleared, as long as no slot loses a trigger as often as there
are generations. -/
theorem map_under_handles {ε : Type} (acts : List (Act (Trigger ε)))
    (hbound : ∀ i, (run acts).vacated.count i < UInt32.size) : MapsHandles acts := by
  have hk := Kept.run acts
  have hlookup : ∀ h t, (run acts).arena.get? h = some t ↔ Stands acts h t := fun h t =>
    (hk.lookup h t).trans mem_live_iff
  have hlength := hk.perm_toList.length_eq
  refine ⟨hlookup, fun h => ?_, fun h t => ?_, hk.nodup_issued hbound,
    ⟨List.Nodup.of_map _ hk.apart, fun h t => mem_live_iff⟩, ?_, hlength, hk.perm_toList,
    fun kind p => hk.perm_toList.filter _, hk.tidy.nodup, hk.tidy.mem_iff⟩
  · rw [isLive, Option.isSome_iff_exists]
    exact exists_congr (hlookup h)
  · rw [remove_fst]
    exact hlookup h t
  · rw [hk.tidy.live, ← hk.perm_occupied.length_eq, List.length_map]

/-- A trigger is taken out, and again through its handle that is stale by then; another one gets its
slot and is cleared, and then the slot is used a third time. -/
theorem map_under_handles_reused :
    let bell : Trigger Nat := ⟨.touch, default, none, none, .named "bell"⟩
    let gate : Trigger Nat := ⟨.button, default, none, some "open", .inlined 7⟩
    let acts : List (Act (Trigger Nat)) := [.insert bell, .insert bell, .remove ⟨0, 0⟩,
      .remove ⟨0, 0⟩, .insert gate, .clear, .insert bell, .insert bell, .insert gate]
    (run acts).issued.map (·.1) = [⟨0, 0⟩, ⟨1, 0⟩, ⟨0, 1⟩, ⟨1, 1⟩, ⟨0, 2⟩, ⟨2, 0⟩] ∧
      (∀ i, (run acts).vacated.count i < UInt32.size) ∧ MapsHandles acts := by
  intro bell gate acts
  have hvacated : (run acts).vacated = [0, 0, 1] := by decide +kernel
  have hbound : ∀ i, (run acts).vacated.count i < UInt32.size := fun i => by
    have hle : (run acts).vacated.count i ≤ (run acts).vacated.length := List.count_le_length
    rw [hvacated] at hle ⊢
    exact lt_of_le_of_lt hle (by decide)
  exact ⟨by decide +kernel, hbound, map_under_handles acts hbound⟩

end Arena

end Cutscene
