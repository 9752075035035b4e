import GridStyle.Context
import GridStyle.Grid.Basic

/-!
# Cells and Calls

A cell knows its place, its number in visiting order and its grid. A call is what a function sees
of the place it is called from.
-/

namespace GridStyle

/-- One cell of a grid. -/
structure Cell where
  /-- The row. -/
  x : Nat := 1
  /-- The column. -/
  y : Nat := 1
  /-- The layer. -/
  z : Nat := 1
  /-- The number in visiting order, counted from one. -/
  count : Nat := 1
  /-- The grid it belongs to. -/
  grid : GridSize := {}
  deriving DecidableEq, Repr

/-- The single cell of a grid of one, composed to find out the grid size. -/
def Cell.discovery : Cell := {}

/-- The cells of a grid in visiting order, numbered from one. -/
def GridSize.cells (g : GridSize) : List Cell :=
  g.coordinates.zipIdx.map fun (p, i) => ⟨p.x, p.y, p.z, i + 1, g⟩

/-- The site of a call. -/
structure Call where
  /-- The cell that is composed. -/
  cell : Cell
  /-- The position of the call in its source. -/
  position : Nat := 0
  /-- Inputs injected by a repeating caller, such as the index and the total. -/
  extra : List String := []
  deriving DecidableEq, Repr

end GridStyle
