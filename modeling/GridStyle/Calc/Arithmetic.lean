import GridStyle.Decimal.Literal
import GridStyle.Decimal.Notation
import GridStyle.Decimal.Remainder

/-!
# Arithmetic for Expressions

The operations that expressions are built from, as a structure over the type of numbers. The
evaluator uses nothing else of that type, so what is proved about it holds for every
interpretation of the operations. `Arithmetic.double` is the one that programs use.
-/

namespace GridStyle.Calc

/-- An interpretation of the operations on numbers. -/
structure Arithmetic (α : Type) where
  /-- Read a number literal. -/
  read : List Char → Option α
  /-- Write a number for a message. -/
  write : α → String
  /-- Whether dividing by this number is refused. -/
  isZero : α → Bool
  /-- Negation. -/
  negate : α → α
  /-- Sum. -/
  add : α → α → α
  /-- Difference. -/
  subtract : α → α → α
  /-- Product. -/
  multiply : α → α → α
  /-- Quotient. -/
  divide : α → α → α
  /-- Remainder of a division. -/
  remainder : α → α → α
  /-- Power. -/
  power : α → α → α
  /-- The smaller of two. -/
  lesser : α → α → α
  /-- The larger of two. -/
  greater : α → α → α
  /-- Sine. -/
  sin : α → α
  /-- Cosine. -/
  cos : α → α
  /-- Tangent. -/
  tan : α → α
  /-- Square root. -/
  sqrt : α → α
  /-- Magnitude. -/
  abs : α → α
  /-- The largest whole number that is not above. -/
  floor : α → α
  /-- The smallest whole number that is not below. -/
  ceil : α → α
  /-- The nearest whole number, halves away from zero. -/
  round : α → α

/-- Doubles. -/
def Arithmetic.double : Arithmetic Float where
  read := Decimal.readFloat
  write := Decimal.exactText
  isZero x := x == 0.0
  negate x := -x
  add x y := x + y
  subtract x y := x - y
  multiply x y := x * y
  divide x y := x / y
  remainder := Decimal.remainder
  power := Float.pow
  lesser := Decimal.lesser
  greater := Decimal.greater
  sin := Float.sin
  cos := Float.cos
  tan := Float.tan
  sqrt := Float.sqrt
  abs := Float.abs
  floor := Float.floor
  ceil := Float.ceil
  round := Float.round

/-- A function that expressions can call. -/
inductive Operation (α : Type) where
  /-- A function of one number. -/
  | unary (f : α → α)
  /-- A function of two numbers. -/
  | binary (f : α → α → α)
  /-- A function of three numbers. -/
  | ternary (f : α → α → α → α)

/-- How many numbers a function takes. -/
def Operation.arity {α : Type} : Operation α → Nat
  | .unary _ => 1
  | .binary _ => 2
  | .ternary _ => 3

/-- Call a function; `none` for a wrong number of numbers. -/
def Operation.run? {α : Type} : Operation α → List α → Option α
  | .unary f, [x] => some (f x)
  | .binary f, [x, y] => some (f x y)
  | .ternary f, [x, y, z] => some (f x y z)
  | _, _ => none

/-- The functions by their names in small letters. -/
def Arithmetic.operation? {α : Type} (A : Arithmetic α) : String → Option (Operation α)
  | "sin" => some (.unary A.sin)
  | "cos" => some (.unary A.cos)
  | "tan" => some (.unary A.tan)
  | "sqrt" => some (.unary A.sqrt)
  | "abs" => some (.unary A.abs)
  | "floor" => some (.unary A.floor)
  | "ceil" => some (.unary A.ceil)
  | "round" => some (.unary A.round)
  | "pow" => some (.binary A.power)
  | "min" => some (.binary A.lesser)
  | "max" => some (.binary A.greater)
  | "clamp" => some (.ternary fun value low high => A.lesser (A.greater value low) high)
  | _ => none

end GridStyle.Calc
