/-!
# Arenas

Values in numbered slots, reached by handles. A slot that has been vacated is used again, the slot
vacated last first; its generation tells the old value from the new one, so that a handle that was
kept too long finds nothing instead of another value. Generations are 32-bit words.
-/

namespace Cutscene

/-- A handle: a slot and the generation of the value it stands for. -/
structure Handle where
  index : Nat
  generation : UInt32
deriving DecidableEq, Repr

/-- A slot, with a value or vacant. -/
structure Slot (α : Type) where
  generation : UInt32
  value : Option α
deriving Inhabited

/-- An arena. -/
structure Arena (α : Type) where
  slots : Array (Slot α)
  /-- The vacant slots, the one to use next first. -/
  free : List Nat
  /-- How many slots have a value. -/
  live : Nat
deriving Inhabited

namespace Arena

variable {α : Type}

/-- No slots. -/
def empty : Arena α := ⟨#[], [], 0⟩

/-- A slot without its value. -/
def Slot.vacate (s : Slot α) : Slot α := ⟨s.generation + 1, none⟩

/-- Puts a value into the slot vacated last, or into a new one. -/
def insert (a : Arena α) (x : α) : Handle × Arena α :=
  match a.free with
  | i :: free =>
    let generation := (a.slots[i]?.map (·.generation)).getD 0
    (⟨i, generation⟩,
      { slots := a.slots.setIfInBounds i ⟨generation, some x⟩, free, live := a.live + 1 })
  | [] => (⟨a.slots.size, 0⟩, { a with slots := a.slots.push ⟨0, some x⟩, live := a.live + 1 })

/-- The value that a handle stands for. -/
def get? (a : Arena α) (h : Handle) : Option α :=
  match a.slots[h.index]? with
  | some s => if s.generation = h.generation then s.value else none
  | none => none

/-- Whether a handle still stands for a value. -/
def isLive (a : Arena α) (h : Handle) : Bool := (a.get? h).isSome

/-- Takes out the value that a handle stands for. -/
def remove (a : Arena α) (h : Handle) : Option α × Arena α :=
  match a.get? h with
  | some x =>
    (some x,
      { slots := a.slots.modify h.index Slot.vacate
        free := h.index :: a.free
        live := a.live - 1 })
  | none => (none, a)

/-- The slots that have a value, in order. -/
def occupied (a : Arena α) : List Nat :=
  (List.range a.slots.size).filter fun i => (a.slots[i]?.bind (·.value)).isSome

/-- Vacates every slot, one after the other. -/
def clear (a : Arena α) : Arena α :=
  { slots := a.slots.map fun s => if s.value.isSome then Slot.vacate s else s
    free := a.occupied.reverse ++ a.free
    live := 0 }

/-- The values with their handles, in the order of their slots. -/
def toList (a : Arena α) : List (Handle × α) :=
  a.slots.toList.zipIdx.filterMap fun (s, i) => s.value.map fun x => (⟨i, s.generation⟩, x)

/-- Puts values in one after the other. -/
def insertAll (a : Arena α) (xs : List α) : Arena α := xs.foldl (fun a x => (a.insert x).2) a

end Arena

end Cutscene
