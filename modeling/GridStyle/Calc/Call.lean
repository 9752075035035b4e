import GridStyle.Calc.Evaluate
import GridStyle.Cell
import GridStyle.Function.Math

/-!
# Expressions in Calls

What the names of an expression stand for where a function is called: the place of the cell, the
sides of its grid, the inputs injected by a repeating caller, and two constants.
-/

namespace GridStyle.Calc

/-- An injected input, if it is a number. -/
def injected (extra : List String) (i : Nat) : Option Float :=
  extra[i]?.bind fun text => Decimal.readFloat (Text.trim text.toList)

/-- The numbers that names stand for in a call. -/
def callNames (call : Call) (name : String) : Option Float :=
  match name with
  | "x" => some call.cell.x.toFloat
  | "y" => some call.cell.y.toFloat
  | "z" => some call.cell.z.toFloat
  | "i" => some call.cell.count.toFloat
  | "X" => some call.cell.grid.x.toFloat
  | "Y" => some call.cell.grid.y.toFloat
  | "Z" => some call.cell.grid.z.toFloat
  | "I" => some call.cell.grid.count.toFloat
  | "PI" => some Shape.pi
  | "E" => some Math.euler
  | "n" => injected call.extra 0
  | "N" => injected call.extra 1
  | _ => none

/-- Evaluate an expression where a function is called. -/
def evaluateCall (call : Call) (source : String) : Except (CalcError Float) Float :=
  evaluate Arithmetic.double (callNames call) source

end GridStyle.Calc
