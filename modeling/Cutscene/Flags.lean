import Std.Data.ExtTreeSet

/-!
# Flags

Named facts of the running game. A flag is set or it is not; the names are kept in the order of
their characters.
-/

namespace Cutscene

/-- The flags that are set. -/
structure Flags where
  names : Std.ExtTreeSet String

namespace Flags

/-- No flag is set. -/
def empty : Flags := ⟨∅⟩

instance : Inhabited Flags := ⟨empty⟩

/-- Whether a flag is set. -/
def has (flags : Flags) (name : String) : Bool := flags.names.contains name

/-- The flags with one set. -/
def set (flags : Flags) (name : String) : Flags := ⟨flags.names.insert name⟩

/-- The flags with one unset. -/
def unset (flags : Flags) (name : String) : Flags := ⟨flags.names.erase name⟩

/-- The names of the flags that are set, in order. -/
def toList (flags : Flags) : List String := flags.names.toList

/-- How many flags are set. -/
def size (flags : Flags) : Nat := flags.names.size

/-- The flags of a list. -/
def ofList (names : List String) : Flags := names.foldl set empty

/-- Two stores with the same flags are equal. -/
@[ext] theorem ext {a b : Flags} (h : ∀ name, a.has name = b.has name) : a = b := by
  cases a; cases b
  congr
  exact Std.ExtTreeSet.ext_contains h

theorem compare_beq_eq (a b : String) : (compare a b == .eq) = (a == b) := by
  rw [Bool.eq_iff_iff]; simp

@[simp] theorem has_empty (name : String) : empty.has name = false := by simp [has, empty]

@[simp] theorem has_set (flags : Flags) (a b : String) :
    (flags.set a).has b = (a == b || flags.has b) := by
  simp [has, set, Std.ExtTreeSet.contains_insert, compare_beq_eq]

@[simp] theorem has_unset (flags : Flags) (a b : String) :
    (flags.unset a).has b = (a != b && flags.has b) := by
  simp [has, unset, Std.ExtTreeSet.contains_erase, bne, compare_beq_eq]

end Flags

end Cutscene
