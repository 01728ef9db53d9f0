import Cutscene.Operation

/-!
# Positions and areas

Positions are in pixels; scene files give them in tiles. The edges of an area belong to it.
-/

namespace Cutscene

open Numeric

/-- A position. -/
structure Point where
  x : Single
  y : Single
deriving DecidableEq, Inhabited

namespace Point

/-- The position that a position in tiles has in pixels. -/
def ofTiles (x y : Single) : Point := ⟨x * tileSize, y * tileSize⟩

/-- The upper left corner. -/
def origin : Point := ⟨.zero false, .zero false⟩

end Point

/-- An upright rectangle: a corner, a width and a height. -/
structure Area where
  x : Single
  y : Single
  width : Single
  height : Single
deriving DecidableEq, Inhabited

namespace Area

/-- The area that an area in tiles has in pixels. -/
def ofTiles (x y width height : Single) : Area :=
  ⟨x * tileSize, y * tileSize, width * tileSize, height * tileSize⟩

/-- Whether a position is in an area. -/
def contains (a : Area) (p : Point) : Bool :=
  a.x.le p.x && a.y.le p.y && p.x.le (a.x + a.width) && p.y.le (a.y + a.height)

end Area

end Cutscene
