import GridStyle.Decimal.Shortest

/-!
# Operations on Doubles

The remainder of doubles, computed exactly, the comparisons that skip NaN, and rounding towards
zero.
-/

namespace GridStyle.Decimal

/-- The whole number of units of `2 ^ unit` in a finite double's magnitude, for a unit that
divides it. -/
def Binary.inUnits (b : Binary) (unit : Int) : Nat :=
  b.mantissa * Nat.pow 2 (b.exponent - unit).toNat

/-- The remainder of a division that rounds towards zero: it has the sign of the dividend and a
magnitude below that of the divisor. It is exact. -/
def remainder (x y : Float) : Float :=
  if x.isNaN || y.isNaN || x.isInf || y == 0.0 then Float.ofBits 0x7FF8000000000000
  else if y.isInf then x
  else
    let a := Binary.ofFloat x
    let b := Binary.ofFloat y
    -- In the smaller unit both magnitudes are whole.
    let unit := min a.exponent b.exponent
    let rest := Float.scaleB (Float.ofNat (a.inUnits unit % b.inUnits unit)) unit
    if a.negative then -rest else rest

/-- The smaller of two doubles; NaN gives way to a number, and of equals the first is taken. -/
def lesser (x y : Float) : Float :=
  if x.isNaN then y else if y < x then y else x

/-- The larger of two doubles; NaN gives way to a number, and of equals the first is taken. -/
def greater (x y : Float) : Float :=
  if x.isNaN then y else if x < y then y else x

/-- Drop the fraction. -/
def truncate (x : Float) : Float :=
  if x < 0.0 then x.ceil else x.floor

end GridStyle.Decimal
