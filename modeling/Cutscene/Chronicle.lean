import Cutscene.Flags
import Cutscene.Journal

/-!
# The chronicle

The flags, the log of what has happened in the world, and the journal: what events and scripts
write to alike. A flag is logged when it changes.
-/

namespace Cutscene

/-- Flags, log and journal. -/
structure Chronicle where
  flags : Flags
  /-- What has happened, the oldest first. -/
  log : Array String
  journal : Journal

namespace Chronicle

/-- Nothing has happened. -/
def empty : Chronicle := ⟨.empty, #[], #[]⟩

instance : Inhabited Chronicle := ⟨empty⟩

/-- Appends a line to the journal. -/
def note (line : Line) (c : Chronicle) : Chronicle := { c with journal := c.journal.push line }

/-- Appends lines to the journal. -/
def noteAll (lines : List Line) (c : Chronicle) : Chronicle :=
  { c with journal := c.journal ++ lines }

/-- Logs that something has happened. -/
def record (entry : String) (c : Chronicle) : Chronicle :=
  { c.note ⟨.debug, s!"world: {entry}"⟩ with log := c.log.push entry }

/-- Sets a flag; tells whether it was unset. -/
def setFlag (name : String) (c : Chronicle) : Bool × Chronicle :=
  if c.flags.has name then (false, c)
  else (true, record s!"flag.set {name}" { c with flags := c.flags.set name })

/-- Unsets a flag; tells whether it was set. -/
def unsetFlag (name : String) (c : Chronicle) : Bool × Chronicle :=
  if c.flags.has name then
    (true, record s!"flag.unset {name}" { c with flags := c.flags.unset name })
  else (false, c)

@[simp] theorem flags_record (entry : String) (c : Chronicle) :
    (c.record entry).flags = c.flags := rfl

@[simp] theorem log_record (entry : String) (c : Chronicle) :
    (c.record entry).log = c.log.push entry := rfl

theorem has_setFlag (name other : String) (c : Chronicle) :
    (c.setFlag name).2.flags.has other = (name == other || c.flags.has other) := by
  unfold setFlag
  split
  · by_cases h : name = other <;> simp_all
  · simp

theorem has_unsetFlag (name other : String) (c : Chronicle) :
    (c.unsetFlag name).2.flags.has other = (name != other && c.flags.has other) := by
  unfold unsetFlag
  split
  · simp
  · by_cases h : name = other <;> simp_all

end Chronicle

end Cutscene
