/-!
# Checked Words

The difference, the quotient and the remainder of words of 64 bits. The result is that of the
operation on whole numbers, and there is none if that is no word or if the divisor is zero
(`WordFault`). A program does not go on after a fault.
-/

namespace GridStyle

/-- Why there is no word for the result of an operation. -/
inductive WordFault where
  /-- The result is out of range. -/
  | overflow
  /-- The divisor is zero. -/
  | zeroDivisor
  deriving DecidableEq, Repr

namespace WordFault

/-- The message for a result that is no word. -/
def text : WordFault → String
  | overflow => "arithmetic overflow"
  | zeroDivisor => "division by zero"

/-- The word with a value. -/
def exact (i : Int) : Except WordFault Int64 :=
  if Int64.minValue.toInt ≤ i ∧ i ≤ Int64.maxValue.toInt then .ok (Int64.ofInt i)
  else .error overflow

/-- The difference of words. -/
def difference (a b : Int64) : Except WordFault Int64 := exact (a.toInt - b.toInt)

/-- The quotient of words, rounded towards zero. -/
def quotient (a b : Int64) : Except WordFault Int64 :=
  if b = 0 then .error zeroDivisor else exact (a.toInt.tdiv b.toInt)

/-- The remainder of words. It is taken together with the quotient. -/
def remainder (a b : Int64) : Except WordFault Int64 :=
  (quotient a b).map fun _ => a % b

theorem exact_eq {i : Int} {w : Int64} (h : w.toInt = i) : exact i = .ok w := by
  rw [exact, if_pos ⟨h ▸ w.minValue_le_toInt, h ▸ w.toInt_le⟩, ← h, Int64.ofInt_toInt]

theorem exact_of_overflow {i : Int} (h : Int64.maxValue.toInt < i) : exact i = .error overflow := by
  rw [exact, if_neg fun hi => Int.not_le.2 h hi.2]

/-- Only the quotient of the least word by minus one is no word. -/
theorem quotient_eq (a : Int64) {b : Int64} (hb : b ≠ 0) :
    quotient a b = if a = Int64.minValue ∧ b = -1 then .error overflow else .ok (a / b) := by
  rw [quotient, if_neg hb]
  split
  · next h =>
    obtain ⟨rfl, rfl⟩ := h
    exact exact_of_overflow (by decide)
  · next h =>
    rw [Classical.not_and_iff_not_or_not] at h
    refine exact_eq ?_
    obtain ha | hb := h
    · exact Int64.toInt_div_of_ne_left _ _ ha
    · exact Int64.toInt_div_of_ne_right _ _ hb

theorem remainder_eq (a : Int64) {b : Int64} (hb : b ≠ 0) :
    remainder a b = if a = Int64.minValue ∧ b = -1 then .error overflow else .ok (a % b) := by
  rw [remainder, quotient_eq a hb]
  split <;> rfl

end WordFault

end GridStyle
