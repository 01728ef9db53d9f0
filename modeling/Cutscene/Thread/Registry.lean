import Std.Data.ExtTreeMap
import Cutscene.Journal

/-!
# Shared values

Scripts share values under names. Publishing under a name that is taken replaces the value and is
reported.
-/

namespace Cutscene

/-- Values by name. -/
structure Registry (α : Type) where
  entries : Std.ExtTreeMap String α

namespace Registry

variable {α : Type}

/-- No values. -/
def empty : Registry α := ⟨∅⟩

instance : Inhabited (Registry α) := ⟨empty⟩

/-- The value under a name. -/
def fetch? (r : Registry α) (name : String) : Option α := r.entries[name]?

/-- Whether there is a value under a name. -/
def contains (r : Registry α) (name : String) : Bool := r.entries.contains name

/-- The names, in order. -/
def names (r : Registry α) : List String := r.entries.keys

/-- How many values there are. -/
def size (r : Registry α) : Nat := r.entries.size

/-- Puts a value under a name; gives the lines to report. -/
def publish (r : Registry α) (name : String) (value : α) : Registry α × List Line :=
  (⟨r.entries.insert name value⟩,
    if r.contains name then [⟨.debug, s!"shared handle '{name}' replaced"⟩] else [])

theorem fetch?_publish (r : Registry α) (name other : String) (value : α) :
    (r.publish name value).1.fetch? other =
      if compare name other = .eq then some value else r.fetch? other := by
  simp [fetch?, publish, Std.ExtTreeMap.getElem?_insert]

end Registry

end Cutscene
