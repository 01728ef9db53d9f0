/-!
# Controls

The inputs of the player that events react to. A press lasts for one frame and can be taken once.
-/

namespace Cutscene

/-- An input of the player. -/
inductive Control where
  | activate
  | selectNext
  | selectPrevious
deriving DecidableEq, Repr

namespace Control

/-- The name of a control. -/
def label : Control → String
  | activate => "activate"
  | selectNext => "select_next"
  | selectPrevious => "select_previous"

/-- The control of a name. -/
def named? (label : String) : Option Control :=
  if label = "activate" then some activate
  else if label = "select_next" then some selectNext
  else if label = "select_previous" then some selectPrevious
  else none

/-- The control of a name or of one of the short names. -/
def parse? (label : String) : Option Control :=
  if label = "next" then some selectNext
  else if label = "prev" ∨ label = "previous" then some selectPrevious
  else named? label

@[simp] theorem named?_label (c : Control) : named? c.label = some c := by cases c <;> rfl

@[simp] theorem parse?_label (c : Control) : parse? c.label = some c := by cases c <;> rfl

end Control

/-- The controls pressed and not yet taken. -/
structure Presses where
  activate : Bool
  selectNext : Bool
  selectPrevious : Bool
deriving DecidableEq, Repr

namespace Presses

/-- Nothing is pressed. -/
def none : Presses := ⟨false, false, false⟩

instance : Inhabited Presses := ⟨none⟩

/-- Whether a control is pressed. -/
def has (p : Presses) : Control → Bool
  | .activate => p.activate
  | .selectNext => p.selectNext
  | .selectPrevious => p.selectPrevious

/-- The presses with a control pressed or not. -/
def put (p : Presses) (pressed : Bool) : Control → Presses
  | .activate => { p with activate := pressed }
  | .selectNext => { p with selectNext := pressed }
  | .selectPrevious => { p with selectPrevious := pressed }

/-- The presses with one more. -/
def press (p : Presses) (c : Control) : Presses := p.put true c

/-- The presses with one taken. -/
def take (p : Presses) (c : Control) : Presses := p.put false c

/-- The pressed controls. -/
def toList (p : Presses) : List Control :=
  [Control.activate, .selectNext, .selectPrevious].filter p.has

theorem has_put (p : Presses) (b : Bool) (c d : Control) :
    (p.put b c).has d = if c = d then b else p.has d := by
  cases c <;> cases d <;> rfl

end Presses

end Cutscene
