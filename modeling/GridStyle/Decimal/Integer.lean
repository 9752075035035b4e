import GridStyle.Decimal.Literal

/-!
# Reading Whole Numbers

A whole number is written with ASCII digits and an optional sign. A signed reader takes both
signs; an unsigned one takes only `+`. A number outside the range of the reader is refused, not
clamped.
-/

namespace GridStyle.Decimal

/-- The number written by a non-empty run of digits. -/
def readDigits (cs : List Char) : Option Nat :=
  if cs.isEmpty || !cs.all Char.isDigit then none else some (Text.ofDigits 10 cs)

/-- The number below `bound` written by digits after an optional `+`. -/
def readUnsigned (bound : Nat) (cs : List Char) : Option Nat :=
  let digits := match cs with
    | '+' :: ds => ds
    | ds => ds
  (readDigits digits).filter (· < bound)

/-- The number from `-bound` to `bound - 1` written by digits after an optional sign. -/
def readSigned (bound : Nat) (cs : List Char) : Option Int :=
  let (negative, digits) := splitSign cs
  (readDigits digits).bind fun n =>
    if negative then (if n ≤ bound then some (-(n : Int)) else none)
    else (if n < bound then some (n : Int) else none)

/-- Numbers of 64 bits without sign. -/
def readNat64 (text : String) : Option Nat := readUnsigned (Nat.pow 2 64) text.toList

/-- Numbers of 64 bits with sign. -/
def readInt64 (cs : List Char) : Option Int64 :=
  (readSigned (Nat.pow 2 63) cs).map Int64.ofInt

/-- A signed number that was read is in the range. -/
theorem readSigned_bounds {bound : Nat} {i : Int} {cs : List Char} (hbound : 0 < bound)
    (h : readSigned bound cs = some i) : -(bound : Int) ≤ i ∧ i < bound := by
  simp only [readSigned, Option.bind_eq_some_iff] at h
  obtain ⟨n, -, h⟩ := h
  split at h <;> split at h <;> simp_all <;> omega

end GridStyle.Decimal
