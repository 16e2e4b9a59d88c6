/-!
# Areas of a terminal

Rectangles of cells.  Coordinates are 16-bit numbers, and an area is cut where it would reach beyond
the last of them.  A terminal gives its last row to the status line and the rest to the text.
-/

namespace ScreenEditor

/-- A rectangle of cells. -/
structure Area where
  x : Nat
  y : Nat
  width : Nat
  height : Nat
  deriving DecidableEq, Repr

namespace Area

/-- The greatest coordinate. -/
def maxCoordinate : Nat := 65535

/-- The area with the given corner and size, as far as coordinates reach. -/
def clipped (x y width height : Nat) : Area :=
  ⟨x, y, min width (maxCoordinate - x), min height (maxCoordinate - y)⟩

/-- The part of a terminal that shows text. -/
def text (a : Area) : Area := clipped a.x a.y a.width (a.height - 1)

/-- The part of a terminal that shows the status line. -/
def status (a : Area) : Area := clipped a.x (a.y + (a.height - 1)) a.width (min a.height 1)

/-- Rows and columns of the grid for a terminal of the given size; there is always a cell. -/
def gridSize (width height : Nat) : Nat × Nat := (max (height - 1) 1, max width 1)

end Area
end ScreenEditor
