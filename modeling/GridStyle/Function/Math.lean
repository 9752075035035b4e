import GridStyle.Decimal.CubeRoot
import GridStyle.Decimal.Literal
import GridStyle.Decimal.Notation
import GridStyle.Decimal.Remainder
import GridStyle.Function.Registry
import GridStyle.Shape

/-!
# Math Functions

Functions of numbers. All arguments have to be numbers, blanks around them ignored, and as many
as the function takes; otherwise the call is absent. So is a result that has no CSS form.
-/

namespace GridStyle.Math

/-- The numbers that all arguments are. -/
def numbers (args : List String) : Option (List Float) :=
  args.mapM fun arg => Decimal.readFloat (Text.trim arg.toList)

/-- A function of the numbers that the arguments are. -/
def onNumbers (f : List Float → Option Float) : EagerFunction := fun _ args =>
  return ((numbers args).bind f).bind Decimal.cssText

/-- A function of one number. -/
def unary (f : Float → Float) : EagerFunction := onNumbers fun
  | [x] => some (f x)
  | _ => none

/-- A function of two numbers. -/
def binary (f : Float → Float → Float) : EagerFunction := onNumbers fun
  | [x, y] => some (f x y)
  | _ => none

/-- A function that combines any number of numbers from the left. -/
def combine (f : Float → Float → Float) : EagerFunction := onNumbers fun
  | [] => none
  | x :: xs => some (xs.foldl f x)

/-- A constant, whatever the arguments are. -/
def constant (x : Float) : EagerFunction := fun _ _ => return Decimal.cssText x

/-- The sign of a number, zero for zeros and NaN. -/
def sign (x : Float) : Float :=
  if 0.0 < x then 1.0 else if x < 0.0 then -1.0 else 0.0

/-- The length of a vector. -/
def length (xs : List Float) : Float :=
  (xs.foldl (fun sum x => sum + x * x) 0.0).sqrt

/-- Euler's number. -/
def euler : Float := 2.718281828459045

/-- The math functions by name. `round` takes halves up. -/
def functions : List (String × EagerFunction) :=
  [("abs", unary Float.abs), ("acos", unary Float.acos), ("asin", unary Float.asin),
    ("atan", unary Float.atan), ("cbrt", unary Decimal.cubeRoot), ("ceil", unary Float.ceil),
    ("cos", unary Float.cos), ("exp", unary Float.exp), ("floor", unary Float.floor),
    ("log", unary Float.log), ("round", unary fun x => (x + 0.5).floor), ("sign", unary sign),
    ("sin", unary Float.sin), ("sqrt", unary Float.sqrt), ("tan", unary Float.tan),
    ("trunc", unary Decimal.truncate), ("pow", binary Float.pow), ("atan2", binary Float.atan2),
    ("min", combine Decimal.lesser), ("max", combine Decimal.greater),
    ("hypot", onNumbers fun xs => some (length xs)), ("PI", constant Shape.pi),
    ("E", constant euler)]

/-- Add the math functions to a registry. -/
def register (r : FunctionRegistry) : FunctionRegistry :=
  functions.foldl (fun r (name, f) => r.registerMath name f) r

end GridStyle.Math
