/-!
# Digits

Digits in bases up to sixteen, with letters in either case, and the numbers that they write.
-/

namespace GridStyle.Text

/-- The value of a digit. -/
def digitValue (c : Char) : Nat :=
  if c.isDigit then c.toNat - 0x30 else if 'a' ≤ c then c.toNat - 0x57 else c.toNat - 0x37

/-- A character is a digit in a base up to sixteen. -/
def isDigitOf (base : Nat) (c : Char) : Bool :=
  (c.isDigit || ('a' ≤ c && c ≤ 'f') || ('A' ≤ c && c ≤ 'F')) && digitValue c < base

/-- The number that a run of digits writes, most significant digit first. -/
def ofDigits (base : Nat) (cs : List Char) : Nat :=
  cs.foldl (fun n c => base * n + digitValue c) 0

/-- No digits write zero. -/
@[simp]
theorem ofDigits_nil (base : Nat) : ofDigits base [] = 0 := rfl

/-- One more digit at the end multiplies by the base and adds. -/
@[simp]
theorem ofDigits_concat (base : Nat) (cs : List Char) (c : Char) :
    ofDigits base (cs ++ [c]) = base * ofDigits base cs + digitValue c := by
  simp [ofDigits]

end GridStyle.Text
