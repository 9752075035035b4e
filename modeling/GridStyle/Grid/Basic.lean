/-!
# Grids

A grid has three sides. A grid with depth is *layered*: it is walked as one line of layers, and
any other grid row by row.
-/

namespace GridStyle

/-- The sides of a grid. -/
structure GridSize where
  /-- The number of rows. -/
  x : Nat := 1
  /-- The number of columns. -/
  y : Nat := 1
  /-- The number of layers. -/
  z : Nat := 1
  deriving DecidableEq, Repr, Inhabited

/-- The place of a cell in its grid, each part counted from one. -/
structure Coordinates where
  /-- The row. -/
  x : Nat
  /-- The column. -/
  y : Nat
  /-- The layer. -/
  z : Nat
  deriving DecidableEq, Repr

namespace GridSize

/-- The product of the sides, which is the number of cells if no side is zero and only grids of
one row and one column are layered. -/
def count (g : GridSize) : Nat := g.x * g.y * g.z

/-- The grid has depth. -/
def layered (g : GridSize) : Bool := 1 < g.z

/-- The numbers from `1` to `n`. -/
def upTo (n : Nat) : List Nat := List.range' 1 n

/-- The cells in visiting order: the layers of a layered grid, and otherwise row by row. -/
def coordinates (g : GridSize) : List Coordinates :=
  if g.layered then (upTo g.z).map fun z => ⟨1, 1, z⟩
  else (upTo g.x).flatMap fun x => (upTo g.y).map fun y => ⟨x, y, 1⟩

@[simp]
theorem mem_upTo {n i : Nat} : i ∈ upTo n ↔ 1 ≤ i ∧ i ≤ n := by
  rw [upTo, List.mem_range'_1]
  omega

@[simp]
theorem length_upTo (n : Nat) : (upTo n).length = n := List.length_range'

end GridSize

end GridStyle
