import GridStyle.Decimal.Shortest

/-!
# Cube Roots

The double nearest to the cube root of a double. The magnitude is scaled by a power of eight to a
whole number of at least 168 bits, whose whole root has more bits than a double holds. One more
bit says whether the root was exact, so that rounding the result once is rounding the real root.
-/

namespace GridStyle.Decimal

/-- The largest `r` below `2 ^ bits` that extends the high bits `high` and has `r ^ 3 ≤ n`. -/
def extendRoot (n : Nat) : Nat → Nat → Nat
  | 0, high => high
  | bits + 1, high =>
    let next := high + Nat.pow 2 bits
    extendRoot n bits (if Nat.pow next 3 ≤ n then next else high)

/-- The whole cube root of a number below `2 ^ 180`. -/
def wholeCubeRoot (n : Nat) : Nat := extendRoot n 60 0

/-- The cube root of a magnitude `m * 2 ^ e`, for `m > 0`, rounded to nearest. -/
def cubeRootOf (m : Nat) (e : Int) : Float :=
  let raised := 168 - m.log2
  -- The power of two that is left has to be a multiple of three.
  let shift := raised + ((e - raised) % 3).toNat
  let scaled := m * Nat.pow 2 shift
  let root := wholeCubeRoot scaled
  let rest := if Nat.pow root 3 = scaled then 0 else 1
  Float.scaleB (Float.ofNat (2 * root + rest)) ((e - shift) / 3 - 1)

/-- The cube root. Zeros, infinities and NaN are their own. -/
def cubeRoot (x : Float) : Float :=
  let b := Binary.ofFloat x
  if b.mantissa = 0 || b.biased = 2047 then x
  else
    let root := cubeRootOf b.mantissa b.exponent
    if b.negative then -root else root

end GridStyle.Decimal
