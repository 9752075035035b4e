import GridStyle.Decimal.Integer
import GridStyle.Grid.Basic
import GridStyle.Text.Split

/-!
# Grid Text

Grids are written as one to three sides: `5`, `4x3`, `1x1x8`. There are two readers.

* `GridSize.ofText` reads any text as a grid. It ignores blanks, takes commas for `x`, skips
  what is not a number from one on and clamps every side to its limit.
* `isGridText` says whether a text is one to three positive whole numbers, and is used to refuse
  settings that would otherwise be read as something else.
-/

namespace GridStyle

/-- The longest side of a grid with several rows and several columns. -/
def sideLimit : Nat := 64

/-- The longest side of a grid with a single row or column. -/
def lineLimit : Nat := 256

/-- The depth limit of a grid with a single row and column. -/
def depthLimit : Nat := 256

/-- A number clamped between one and a limit. -/
def clampSide (limit n : Nat) : Nat := min (max n 1) limit

/-- A side: the whole part of a number that is finite and not below one. Numbers beyond 32 bits
saturate. -/
def readSide (cs : List Char) : Option Nat :=
  (Decimal.readFloat cs).bind fun v =>
    if v.isFinite && 1.0 ≤ v then some v.toUInt32.toNat else none

/-- The characters that separate sides. -/
def isSideSeparator (c : Char) : Bool :=
  c == 'x' || c == 'X' || c == ',' || c == '，'

namespace GridSize

/-- The grid with the sides that were read. A missing column count copies the row count, and
only a grid of one row and one column has depth. -/
def ofSides (x y z : Option Nat) : GridSize :=
  let limit := if x = some 1 ∨ y = some 1 then lineLimit else sideLimit
  let rows := clampSide limit (x.getD 1)
  let columns := clampSide limit ((y.or x).getD 1)
  let depth := if rows = 1 ∧ columns = 1 then depthLimit else 1
  ⟨rows, columns, clampSide depth (z.getD 1)⟩

/-- The sides written in a grid text, `none` for a piece that is not a side. -/
def sides (cs : List Char) : List (Option Nat) :=
  ((Text.cutAt isSideSeparator (Text.dropBlanks cs)).filter (!·.isEmpty)).map readSide

/-- Read any text as a grid. -/
def ofText (text : String) : GridSize :=
  let read := sides text.toList
  ofSides read[0]?.join read[1]?.join read[2]?.join

/-- Rows and columns of a grid from `ofSides` are at least one, and so is its depth. -/
theorem one_le_ofSides (x y z : Option Nat) :
    1 ≤ (ofSides x y z).x ∧ 1 ≤ (ofSides x y z).y ∧ 1 ≤ (ofSides x y z).z := by
  simp only [ofSides, clampSide, lineLimit, sideLimit, depthLimit]
  split <;> split <;> omega

end GridSize

/-- One to three positive whole numbers of 32 bits, separated by `x` or `X`. -/
def isGridText (text : String) : Bool :=
  let sides := (Text.cutAt (fun c => c == 'x' || c == 'X') (Text.trim text.toList)).map Text.trim
  sides.length ≤ 3 && sides.all fun side =>
    match Decimal.readUnsigned (Nat.pow 2 32) side with
    | some n => 0 < n
    | none => false

end GridStyle
