/-!
# Diagnostic lines

While it runs, the program reports what it does in lines of five levels. They are part of its
observable behaviour: every component appends to the same journal, in the order in which things
happen.
-/

namespace Cutscene

/-- How urgent a line is. -/
inductive Level where
  | error
  | warn
  | info
  | debug
  | trace
deriving DecidableEq, Repr

/-- Levels by urgency, the most urgent first. -/
def Level.rank : Level → Nat
  | error => 1
  | warn => 2
  | info => 3
  | debug => 4
  | trace => 5

/-- One diagnostic line. -/
structure Line where
  level : Level
  text : String
deriving DecidableEq, Repr

/-- The lines so far, the oldest first. -/
abbrev Journal := Array Line

end Cutscene
