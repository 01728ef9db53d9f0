/-!
# The watchdog

A script may run only so long before it has to give way. The watchdog has a budget; armed at some
time, it gives a deadline one budget later. Times are in nanoseconds on a clock that never goes
back.
-/

namespace Cutscene

/-- The time that one resume of a script may take. -/
structure Watchdog where
  budget : Nat
deriving DecidableEq, Repr, Inhabited

/-- The time at which a script has to have given way. -/
structure Deadline where
  time : Nat
deriving DecidableEq, Repr, Inhabited

namespace Watchdog

/-- Five seconds. -/
def standard : Watchdog := ⟨5000000000⟩

/-- The deadline of a script that is resumed now. -/
def arm (w : Watchdog) (now : Nat) : Deadline := ⟨now + w.budget⟩

end Watchdog

namespace Deadline

/-- Whether the deadline has come. -/
def isExpired (d : Deadline) (now : Nat) : Bool := d.time ≤ now

/-- The time that is left. -/
def remaining (d : Deadline) (now : Nat) : Nat := d.time - now

@[simp] theorem isExpired_arm (w : Watchdog) (start now : Nat) :
    (w.arm start).isExpired now = decide (start + w.budget ≤ now) := rfl

end Deadline

end Cutscene
