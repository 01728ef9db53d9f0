import Std.Data.ExtTreeMap
import Cutscene.Event

/-!
# Event libraries

The named events of one scene, in the order of their names.
-/

namespace Cutscene

/-- Events by name. -/
structure Library where
  events : Std.ExtTreeMap String Event

namespace Library

/-- No events. -/
def empty : Library := ⟨∅⟩

instance : Inhabited Library := ⟨empty⟩

/-- The event of a name. -/
def find? (lib : Library) (name : String) : Option Event := lib.events[name]?

/-- The event that runs when the scene is loaded. -/
def start? (lib : Library) : Option Event := lib.find? Event.startName

/-- The library with a new event, in place of any of that name. -/
def insert (lib : Library) (origin : Nat) (name : String) (operations : List Operation) : Library :=
  ⟨lib.events.insert name (.make origin (some name) operations)⟩

/-- The names, in order. -/
def names (lib : Library) : List String := lib.events.keys

/-- How many events there are. -/
def size (lib : Library) : Nat := lib.events.size

/-- The events of a list of names and operations, numbered from `origin` on. -/
def ofList (origin : Nat) (entries : List (String × List Operation)) : Library :=
  entries.zipIdx.foldl (fun lib (entry, i) => lib.insert (origin + i) entry.1 entry.2) empty

theorem find?_insert (lib : Library) (origin : Nat) (name other : String)
    (operations : List Operation) :
    (lib.insert origin name operations).find? other =
      if compare name other = .eq then some (.make origin (some name) operations)
      else lib.find? other := by
  simp [find?, insert, Std.ExtTreeMap.getElem?_insert]

@[simp] theorem find?_empty (name : String) : empty.find? name = none := by simp [find?, empty]

/-- An event of a library with a new event is the new one or was there before. -/
theorem eq_or_find?_of_insert {lib : Library} {origin : Nat} {name other : String}
    {operations : List Operation} {e : Event}
    (h : (lib.insert origin name operations).find? other = some e) :
    e = .make origin (some name) operations ∨ lib.find? other = some e := by
  rw [find?_insert] at h
  split at h
  · exact Or.inl (Option.some.inj h).symm
  · exact Or.inr h

/-- A name stands for the last entry of that name. -/
theorem find?_ofList (origin : Nat) (entries : List (String × List Operation)) (name : String) :
    (ofList origin entries).find? name = (entries.zipIdx.reverse.find? (·.1.1 == name)).map
      fun x => .make (origin + x.2) (some x.1.1) x.1.2 := by
  have hfold : ∀ (numbered : List ((String × List Operation) × Nat)) (lib : Library),
      (numbered.foldl (fun lib (entry, i) => lib.insert (origin + i) entry.1 entry.2) lib).find?
        name = ((numbered.reverse.find? (·.1.1 == name)).map
          fun x => .make (origin + x.2) (some x.1.1) x.1.2).or (lib.find? name) := by
    intro numbered
    induction numbered with
    | nil => simp
    | cons x numbered ih =>
      intro lib
      rw [List.foldl_cons, ih, find?_insert, List.reverse_cons, List.find?_append]
      cases numbered.reverse.find? (·.1.1 == name) with
      | some y => rfl
      | none => by_cases h : x.1.1 = name <;> simp [h]
  rw [ofList, hfold, find?_empty, Option.or_none]

/-- What an event of a library is called and does depends on the list only, not on the numbers. -/
theorem map_find?_ofList (origin : Nat) (entries : List (String × List Operation))
    (name : String) : ((ofList origin entries).find? name).map (fun e => (e.name, e.operations)) =
      (entries.reverse.find? (·.1 == name)).map fun entry => (some entry.1, entry.2) := by
  have hentries : entries.reverse = entries.zipIdx.reverse.map (·.1) := by
    rw [List.map_reverse, List.zipIdx_map_fst]
  rw [find?_ofList, hentries, List.find?_map, Option.map_map, Option.map_map]
  rfl

/-- Every event of a library comes from an entry of the list that it was made of, and its number
tells which. -/
theorem exists_getElem?_of_find?_ofList {origin : Nat} {entries : List (String × List Operation)}
    {name : String} {e : Event} (h : (ofList origin entries).find? name = some e) :
    ∃ (i : Nat) (entry : String × List Operation), entries[i]? = some entry ∧
      e = .make (origin + i) (some entry.1) entry.2 := by
  rw [find?_ofList] at h
  obtain ⟨x, hx, rfl⟩ := Option.map_eq_some_iff.mp h
  have hmem := List.mem_reverse.mp (List.mem_of_find?_eq_some hx)
  exact ⟨x.2, x.1, List.mem_zipIdx_iff_getElem?.mp hmem, rfl⟩

theorem exists_of_find?_ofList {origin : Nat} {entries : List (String × List Operation)}
    {name : String} {e : Event} (h : (ofList origin entries).find? name = some e) :
    ∃ name' operations n, (name', operations) ∈ entries ∧
      e = .make n (some name') operations := by
  obtain ⟨i, entry, hget, he⟩ := exists_getElem?_of_find?_ofList h
  exact ⟨entry.1, entry.2, origin + i, List.mem_of_getElem? hget, he⟩

/-- A library has the events that the list names of which it was made. -/
theorem isSome_find?_ofList (origin : Nat) (entries : List (String × List Operation))
    (name : String) :
    ((ofList origin entries).find? name).isSome = entries.any (·.1 == name) := by
  have hnames : entries.zipIdx.any (·.1.1 == name) = entries.any (·.1 == name) := by
    have hmap : (entries.zipIdx.map (·.1)).any (·.1 == name) = _ := List.any_map
    rw [List.zipIdx_map_fst] at hmap
    exact hmap.symm
  rw [find?_ofList, Option.isSome_map, ← hnames, Bool.eq_iff_iff, List.find?_isSome,
    List.any_eq_true]
  simp only [List.mem_reverse]

end Library

end Cutscene
