import GridStyle.CheckedWord
import GridStyle.Decimal.Integer
import GridStyle.Text.Blank

/-!
# Progressions

The notation `an+b` stands for the numbers `a * n + b` with `n` from zero on. `odd` is `2n+1`
and `even` is `2n`, and a number alone is itself. Blanks mean nothing, and letters may be large
or small. Coefficients are words of 64 bits, and so is the distance of a number to the offset: where
it leaves the range, it is not found out whether the progression contains the number.
-/

namespace GridStyle

/-- The numbers `step * n + offset` for `n ≥ 0`. -/
structure Progression where
  /-- The distance of neighbours. -/
  step : Int64
  /-- The number for `n = 0`. -/
  offset : Int64
  deriving DecidableEq, Repr

namespace Progression

/-- The coefficient in front of `n`: a sign alone, or nothing, stands for one. -/
def readStep : List Char → Option Int64
  | [] | ['+'] => some 1
  | ['-'] => some (-1)
  | cs => Decimal.readInt64 cs

/-- The number after `n`. One plus sign in front of it is dropped. -/
def readOffset : List Char → Option Int64
  | [] => some 0
  | '+' :: cs => Decimal.readInt64 cs
  | cs => Decimal.readInt64 cs

/-- Read a progression in small letters without blanks. It is cut at the first `n`. -/
def readPlain (cs : List Char) : Option Progression :=
  -- `even` has an `n` as well, so the words come first.
  if cs = "odd".toList then some ⟨2, 1⟩
  else if cs = "even".toList then some ⟨2, 0⟩
  else
    match cs.dropWhile (· != 'n') with
    | [] => (Decimal.readInt64 cs).map (⟨0, ·⟩)
    | _ :: after => do
      let step ← readStep (cs.takeWhile (· != 'n'))
      let offset ← readOffset after
      return ⟨step, offset⟩

/-- Read a progression. Only ASCII letters can occur in one, so no others are made small. -/
def read (text : String) : Option Progression :=
  readPlain ((Text.dropBlanks text.toList).map Char.toLower)

/-- Whether the progression contains a number. The distance to the offset has to be a multiple of
the step in the direction of the step. -/
def contains (p : Progression) (index : Int64) : Except WordFault Bool :=
  if p.step = 0 then return index = p.offset
  else do
    let distance ← WordFault.difference index p.offset
    let rest ← WordFault.remainder distance p.step
    if rest = 0 then
      -- The quotient is the `n` of the number.
      let times ← WordFault.quotient distance p.step
      return 0 ≤ times
    else return false

end Progression

end GridStyle
