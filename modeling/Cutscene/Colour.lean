/-!
# Colours

The colour of the overlay that fades cover the picture with.
-/

namespace Cutscene

/-- A colour with an opacity, each part from 0 to 255. -/
structure Colour where
  red : UInt8
  green : UInt8
  blue : UInt8
  alpha : UInt8
deriving DecidableEq, Repr

namespace Colour

/-- Black and fully transparent. -/
def clear : Colour := ⟨0, 0, 0, 0⟩

instance : Inhabited Colour := ⟨clear⟩

/-- The colour with another opacity. -/
def withAlpha (c : Colour) (alpha : UInt8) : Colour := { c with alpha := alpha }

end Colour

end Cutscene
