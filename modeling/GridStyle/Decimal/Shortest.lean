/-!
# The Shortest Decimal of a Double

Among the decimals that read back as a given double, the shortest is the one with the fewest
digits, and of those the nearest. Both are found in exact arithmetic: the double is taken apart
into `mantissa * 2 ^ exponent`, the reals that round to it form an interval around it, and for
1, 2, … 17 digits the two neighbours of the value on that decimal grid are tried against the
interval. If any point of a grid lies in the interval then one of the two neighbours does, so
the first grid with a hit has the fewest digits.

## Main definitions

* `Binary`: the parts of a double's bits, with `Binary.mantissa` and `Binary.exponent`.
* `Rounding`: the reals that round to a double, with `Rounding.neighbour?`, the whole number
  among them that is nearest.
* `shortest`: the digits of the shortest decimal and their power of ten.
-/

namespace GridStyle.Decimal

/-- The parts of a double's bits. A finite double is `mantissa * 2 ^ exponent`, negated if
`negative`. -/
structure Binary where
  /-- The sign bit. -/
  negative : Bool
  /-- The stored exponent, `2047` for infinities and NaN. -/
  biased : Nat
  /-- The stored fraction, below `2 ^ 52`. -/
  fraction : Nat
  deriving DecidableEq, Repr

namespace Binary

/-- Take a double apart. -/
def ofFloat (x : Float) : Binary :=
  let bits := x.toBits.toNat
  ⟨bits / Nat.pow 2 63 == 1, bits / Nat.pow 2 52 % Nat.pow 2 11, bits % Nat.pow 2 52⟩

/-- The integer that the power of two multiplies: normal doubles have a leading one that is not
stored. -/
def mantissa (b : Binary) : Nat :=
  if b.biased = 0 then b.fraction else b.fraction + Nat.pow 2 52

/-- The power of two. -/
def exponent (b : Binary) : Int :=
  if b.biased = 0 then -1074 else b.biased - 1075

/-- The double below is closer than the one above, which is so at powers of two. -/
def narrowBelow (b : Binary) : Bool :=
  b.fraction == 0 && 1 < b.biased

end Binary

/-- A fraction of natural numbers, the denominator positive. -/
structure Ratio where
  /-- The numerator. -/
  num : Nat
  /-- The denominator. -/
  den : Nat
  deriving Repr

/-- `m * 2 ^ e` as a ratio. -/
def Ratio.ofBinary (m : Nat) (e : Int) : Ratio :=
  if 0 ≤ e then ⟨m * Nat.pow 2 e.toNat, 1⟩ else ⟨m, Nat.pow 2 (-e).toNat⟩

/-- `10 ^ p ≤ r`. -/
def Ratio.atLeastPower (r : Ratio) (p : Int) : Bool :=
  if 0 ≤ p then Nat.pow 10 p.toNat * r.den ≤ r.num else r.den ≤ r.num * Nat.pow 10 (-p).toNat

/-- The largest `p` with `10 ^ p ≤ m * 2 ^ e`, for `m > 0`: an estimate from the binary
logarithm, moved by the exact comparison. -/
def leadingPower (m : Nat) (e : Int) : Int :=
  -- `0.30103` is close to the decimal logarithm of two, so the estimate is off by one at most.
  let estimate := ((m.log2 : Int) + e) * 30103 / 100000
  let value := Ratio.ofBinary m e
  if value.atLeastPower (estimate + 1) then estimate + 1
  else if value.atLeastPower estimate then estimate
  else estimate - 1

/-- A decimal `digits * 10 ^ power`. -/
structure Digits where
  /-- The digits, read as one number. -/
  digits : Nat
  /-- The power of ten that scales them. -/
  power : Int
  deriving DecidableEq, Repr

/-- Move zeros at the end of the digits into the power, at most `limit` of them. -/
def Digits.strip : Nat → Digits → Digits
  | 0, d => d
  | limit + 1, d =>
    if d.digits ≠ 0 ∧ d.digits % 10 = 0 then strip limit ⟨d.digits / 10, d.power + 1⟩ else d

/-- The interval of reals that round to a double, scaled so that everything is a natural
number: `low`, `value` and `high` over `den`. -/
structure Rounding where
  /-- The lower end. -/
  low : Nat
  /-- The double itself. -/
  value : Nat
  /-- The upper end. -/
  high : Nat
  /-- The common denominator. -/
  den : Nat
  /-- Whether the ends round to the double too. -/
  closed : Bool
  deriving Repr

namespace Rounding

/-- The interval of a finite double other than zero. Its ends belong to it when the mantissa is
even, because ties go to the even double. -/
def ofBinary (b : Binary) : Rounding :=
  let m := b.mantissa
  -- In quarters of the last place the ends are whole numbers also where the double below is
  -- closer.
  let e := b.exponent - 2
  let scale := if 0 ≤ e then Nat.pow 2 e.toNat else 1
  let den := if 0 ≤ e then 1 else Nat.pow 2 (-e).toNat
  { low := (4 * m - if b.narrowBelow then 1 else 2) * scale
    value := 4 * m * scale
    high := (4 * m + 2) * scale
    den := den
    closed := m % 2 == 0 }

/-- The same interval in units of `10 ^ p`. -/
def inPowers (r : Rounding) (p : Int) : Rounding :=
  if 0 ≤ p then { r with den := r.den * Nat.pow 10 p.toNat }
  else
    let s := Nat.pow 10 (-p).toNat
    { r with low := r.low * s, value := r.value * s, high := r.high * s }

/-- Whether the whole number `n` lies in the interval. -/
def holds (r : Rounding) (n : Nat) : Bool :=
  if r.closed then r.low ≤ n * r.den && n * r.den ≤ r.high
  else r.low < n * r.den && n * r.den < r.high

/-- The whole number in the interval that is nearest to the double: one of the two neighbours
of the value, the larger one on a tie. -/
def neighbour? (r : Rounding) : Option Nat :=
  let below := r.value / r.den
  let above := below + 1
  match r.holds below, r.holds above with
  | false, false => none
  | true, false => some below
  | false, true => some above
  | true, true =>
    if r.value - below * r.den < above * r.den - r.value then some below else some above

end Rounding

/-- Try decimals of `17 - more`, … , `17` digits in turn. The last grid always has a hit; its
fallback is the value cut to 17 digits. -/
def searchDigits (r : Rounding) (leading : Int) : Nat → Digits
  | 0 =>
    let p := leading - 16
    let q := r.inPowers p
    ⟨(q.neighbour?).getD (q.value / q.den), p⟩
  | more + 1 =>
    let p := leading - (16 - (more + 1 : Nat))
    match (r.inPowers p).neighbour? with
    | some digits => ⟨digits, p⟩
    | none => searchDigits r leading more

/-- The shortest decimal of a finite double's magnitude, without zeros at the end. -/
def shortest (b : Binary) : Digits :=
  if b.mantissa = 0 then ⟨0, 0⟩
  else
    searchDigits (Rounding.ofBinary b) (leadingPower b.mantissa b.exponent) 16
      |> Digits.strip 17

end GridStyle.Decimal
