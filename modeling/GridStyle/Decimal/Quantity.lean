import GridStyle.Decimal.Literal
import GridStyle.Text.Blank

/-!
# Numbers with Units

CSS writes quantities as a number followed at once by a unit: `10px`, `50%`, `1.5`. The number
takes the longest run of number characters: digits and points, a sign at the very front, and an
`e` that a digit follows. So the `e` of `3em` belongs to the unit.
-/

namespace GridStyle.Decimal

/-- A number and its unit, which may be empty. -/
structure Quantity where
  /-- The number. -/
  value : Float
  /-- The unit. -/
  unit : String

/-- The characters of the number and those of the unit, after the first character. -/
def spanNumber : List Char → List Char × List Char
  | [] => ([], [])
  | c :: cs =>
    let goesOn := c.isDigit || c == '.' ||
      ((c == 'e' || c == 'E') && cs.head?.any Char.isDigit)
    if goesOn then
      let (number, unit) := spanNumber cs
      (c :: number, unit)
    else ([], c :: cs)

/-- The characters of the number and those of the unit. Only at the front a sign counts, and
only there an `e` never does. -/
def splitQuantity : List Char → List Char × List Char
  | [] => ([], [])
  | c :: cs =>
    if c.isDigit || c == '.' || c == '-' || c == '+' then
      let (number, unit) := spanNumber cs
      (c :: number, unit)
    else ([], c :: cs)

/-- Read a number with a unit, blanks around it ignored. -/
def readQuantity (text : String) : Option Quantity :=
  let (number, unit) := splitQuantity (Text.trim text.toList)
  (readFloat number).map fun value => ⟨value, String.ofList unit⟩

/-- Number and unit make up the text. -/
theorem spanNumber_append (cs : List Char) : (spanNumber cs).1 ++ (spanNumber cs).2 = cs := by
  induction cs with
  | nil => rfl
  | cons c cs ih => rw [spanNumber]; split <;> simp [ih]

end GridStyle.Decimal
