import GridStyle.Decimal.Quantity
import GridStyle.Proofs.WrittenNumber
import Mathlib

/-!
# Whole Numbers as Doubles

A double has a significand of 53 bits (`Significand`). A number below `2 ^ 53` fits into one, so
that reading it from its digits, multiplying it by one and cutting it to a word of 64 bits is exact
(`toUInt64_nearest`), as is cutting a number of 32 bits to a word of these (`toUInt32_nearest`). The
text of such a number is read as a quantity with this value and without a unit
(`readQuantity_toString`).
-/

namespace GridStyle.Decimal

open Float.Model (Format totalExponent)
open Float.Model.UnpackedFloat

/-! ### Significands -/

/-- A number of 53 bits whose first bit is set. -/
structure Significand where
  /-- The number. -/
  value : Nat
  /-- The first bit is set. -/
  lower : 2 ^ 52 ≤ value
  /-- There are no more bits. -/
  upper : value < 2 ^ 53

namespace Significand

theorem pos (m : Significand) : 0 < m.value := Nat.lt_of_lt_of_le (Nat.two_pow_pos 52) m.lower

/-- The double `m * 2 ^ e`. -/
def float (m : Significand) (e : Int) : Float.Model.UnpackedFloat :=
  .finite .positive m.value e m.pos

/-- The significand of a number of at most 53 bits: it is moved to the left. -/
def ofNat (n : Nat) (hpos : n ≠ 0) (h : n < 2 ^ 53) : Significand where
  value := n * 2 ^ (52 - n.log2)
  lower := by
    have hlog : n.log2 ≤ 52 := Nat.le_of_lt_succ ((Nat.log2_lt hpos).2 h)
    calc 2 ^ 52 = 2 ^ n.log2 * 2 ^ (52 - n.log2) := by rw [← Nat.pow_add]; congr 1; omega
      _ ≤ n * 2 ^ (52 - n.log2) := Nat.mul_le_mul_right _ (Nat.log2_self_le hpos)
  upper := by
    have hlog : n.log2 ≤ 52 := Nat.le_of_lt_succ ((Nat.log2_lt hpos).2 h)
    calc n * 2 ^ (52 - n.log2) < 2 ^ (n.log2 + 1) * 2 ^ (52 - n.log2) :=
          Nat.mul_lt_mul_of_pos_right Nat.lt_log2_self (Nat.two_pow_pos _)
      _ = 2 ^ 53 := by rw [← Nat.pow_add]; congr 1; omega

variable (m : Significand) {e : Int}

theorem log2_mul_two_pow (k : Nat) : (m.value * 2 ^ k).log2 = 52 + k := by
  have hpos : m.value * 2 ^ k ≠ 0 := Nat.ne_of_gt (Nat.mul_pos m.pos (Nat.two_pow_pos k))
  rw [Nat.log2_eq_iff hpos, Nat.pow_add, show 52 + k + 1 = 53 + k by omega, Nat.pow_add]
  exact ⟨Nat.mul_le_mul_right _ m.lower, Nat.mul_lt_mul_of_pos_right m.upper (Nat.two_pow_pos k)⟩

/-- However far it was moved, a significand is moved back to its place. -/
theorem targetExponent (k : Nat) (he : -1074 ≤ e) :
    Format.binary64.targetExponent (totalExponent (m.value * 2 ^ k) (e - k)) = e := by
  rw [Format.targetExponent, totalExponent, m.log2_mul_two_pow]
  simp only [Format.mantissaBits, Format.minExponent]
  omega

/-- Bits that are zero are dropped without loss. -/
theorem shiftRight_exact (n k : Nat) :
    (ExtendedMantissa.ofMantissaAndAccuracy (n * 2 ^ k) .exact >>> k) =
      ExtendedMantissa.ofMantissaAndAccuracy n .exact := by
  induction k generalizing n with
  | zero => rw [Nat.pow_zero, Nat.mul_one]; rfl
  | succ k ih =>
    have hone : ExtendedMantissa.shiftRightOne (ExtendedMantissa.ofMantissaAndAccuracy (n * 2)
        .exact) = ExtendedMantissa.ofMantissaAndAccuracy n .exact := by
      simp [ExtendedMantissa.shiftRightOne, ExtendedMantissa.ofMantissaAndAccuracy]
    have hmul : n * 2 ^ (k + 1) = n * 2 * 2 ^ k := by rw [Nat.pow_succ, Nat.mul_comm (2 ^ k),
      Nat.mul_assoc]
    change ExtendedMantissa.shiftRightOne
      (ExtendedMantissa.ofMantissaAndAccuracy (n * 2 ^ (k + 1)) .exact >>> k) = _
    rw [hmul, ih, hone]

theorem shiftToTargetExponent_eq (k : Nat) (he : -1074 ≤ e) :
    shiftToTargetExponent Format.binary64 (m.value * 2 ^ k) (e - k) .exact =
      (ExtendedMantissa.ofMantissaAndAccuracy m.value .exact, e) := by
  have hshift : (e - (e - k)).toNat = k := by omega
  have hback : e - k + k = e := by omega
  simp only [shiftToTargetExponent, m.targetExponent k he, shiftToExponent, hshift, hback,
    shiftRight_exact]

/-- Rounding drops the zero bits behind a significand, and nothing else. -/
theorem roundWithAccuracy_eq (k : Nat) (he : -1074 ≤ e) :
    roundWithAccuracy Format.binary64 .positive (m.value * 2 ^ k) (e - k) .exact = m.float e := by
  have hpos : m.value ≠ 0 := Nat.ne_of_gt m.pos
  have hdone := m.shiftToTargetExponent_eq 0 he
  have hzero : e - ((0 : Nat) : Int) = e := by omega
  rw [Nat.pow_zero, Nat.mul_one, hzero] at hdone
  have hrounded : (ExtendedMantissa.ofMantissaAndAccuracy m.value .exact).roundedMantissa =
    m.value := rfl
  -- The significand is in its place at once, so the second shift does nothing.
  simp only [roundWithAccuracy, m.shiftToTargetExponent_eq k he, hrounded, hdone]
  exact dif_neg hpos

/-- A number of at most 53 bits is converted exactly. -/
theorem ofNat_eq {n : Nat} (hpos : n ≠ 0) (h : n < 2 ^ 53) :
    Float.Model.UnpackedFloat.ofNat Format.binary64 n =
      (ofNat n hpos h).float ((n.log2 : Int) - 52) := by
  have hlog : n.log2 ≤ 52 := Nat.le_of_lt_succ ((Nat.log2_lt hpos).2 h)
  have hcompare : compare (n : Int) 0 = .gt := Int.compare_eq_gt.2 (by omega)
  have htarget : Format.binary64.targetExponent (totalExponent n 0) = (n.log2 : Int) - 52 := by
    rw [Format.targetExponent, totalExponent]
    simp only [Format.mantissaBits, Format.minExponent]
    omega
  have hshift : (0 - ((n.log2 : Int) - 52)).toNat = 52 - n.log2 := by omega
  have hback : (0 : Int) - (52 - n.log2 : Nat) = (n.log2 : Int) - 52 := by omega
  have hround := (ofNat n hpos h).roundWithAccuracy_eq 0
    (show -1074 ≤ (n.log2 : Int) - 52 by omega)
  have hzero : ∀ e : Int, e - ((0 : Nat) : Int) = e := fun e => by omega
  rw [Nat.pow_zero, Nat.mul_one, hzero] at hround
  simp only [Float.Model.UnpackedFloat.ofNat, ofInt, Float.Model.UnpackedFloat.normalize,
    hcompare, Float.Model.UnpackedFloat.round, Int.toNat_natCast, htarget, decreaseExponent,
    hshift, hback, Nat.shiftLeft_eq]
  exact hround

/-- Multiplying by one is exact. -/
theorem mul_one (he : -1074 ≤ e) :
    mul Format.binary64 (m.float e) (.finite .positive (2 ^ 52) (-52) (Nat.two_pow_pos 52)) =
      m.float e := by
  have hexponent : e + -52 = e - (52 : Nat) := by omega
  rw [float, mul, hexponent]
  exact m.roundWithAccuracy_eq 52 he

/-- The bits of an exponent that is not at either end of its range. -/
theorem ofNat_ne_of_lt {biased : Nat} (hpos : 0 < biased) (hlt : biased < 2047) :
    BitVec.ofNat 11 biased ≠ -1#11 ∧ BitVec.ofNat 11 biased ≠ 0#11 := by
  have hnat : (BitVec.ofNat 11 biased).toNat = biased := by
    rw [BitVec.toNat_ofNat]
    omega
  constructor
  · intro hones
    have hvalue := congrArg BitVec.toNat hones
    rw [hnat] at hvalue
    change biased = 2047 at hvalue
    omega
  · intro hzeros
    have hvalue := congrArg BitVec.toNat hzeros
    rw [hnat] at hvalue
    change biased = 0 at hvalue
    omega

/-- The first bit of a significand is not stored, but put in front of the others again. -/
theorem toNat_one_append : (1#1 ++ BitVec.ofNat 52 m.value).toNat = m.value := by
  have hlower := m.lower
  have hupper := m.upper
  rw [BitVec.toNat_append, BitVec.toNat_ofNat, BitVec.toNat_ofNat, Nat.shiftLeft_eq, Nat.or_comm]
  change m.value % 2 ^ 52 ||| 2 ^ 52 = m.value
  rw [Nat.or_two_pow_eq_add_of_lt (Nat.mod_lt _ (Nat.two_pow_pos 52))]
  omega

theorem unpackSign_positive (exponent : BitVec 11) (mantissa : BitVec 52) :
    Sign.ofBitVec (unpackSign (packComponents Format.binary64 .positive exponent mantissa)) =
      .positive := by
  have hbit : unpackSign (packComponents Format.binary64 .positive exponent mantissa) = 0#1 := by
    change ((0#1 ++ exponent) ++ mantissa).extractLsb' 63 1 = 0#1
    rw [BitVec.extractLsb'_append_eq_of_le (by decide),
      BitVec.extractLsb'_append_eq_of_le (by decide)]
    rfl
  rw [hbit]
  rfl

/-- The exponent is written with a bias, and the significand without its first bit. -/
theorem pack_float {biased : Nat} (hbiased : (biased : Int) = e + 1075) (hlt : biased < 2047) :
    pack Format.binary64 (m.float e) = packComponents Format.binary64 .positive
      (BitVec.ofNat 11 biased) (BitVec.ofNat 52 m.value) := by
  have hlog : m.value.log2 = 52 := by
    have hlog := m.log2_mul_two_pow 0
    rw [Nat.pow_zero, Nat.mul_one] at hlog
    exact hlog
  have hstored : (e + (Format.binary64.exponentBias : Int) +
      (Format.binary64.mantissaBitsWithoutImplicit : Int)).toNat = biased := by
    change (e + 1023 + 52).toNat = biased
    omega
  have hsmall : ¬ 2 ^ Format.binary64.exponentBits ≤ biased + 1 := by
    change ¬ 2048 ≤ biased + 1
    omega
  simp only [float, pack, hstored, if_neg hsmall, hlog]
  rfl

/-- A double that is written to a word is the same when it is read from it. -/
theorem unpack_pack (hlow : -1074 ≤ e) (hhigh : e ≤ 971) :
    unpack Format.binary64 (pack Format.binary64 (m.float e)) = m.float e := by
  obtain ⟨biased, hbiased⟩ : ∃ biased : Nat, (biased : Int) = e + 1075 :=
    ⟨(e + 1075).toNat, by omega⟩
  have hlt : biased < 2047 := by omega
  -- The exponent is that of a normal number: its bits are neither all one nor all zero.
  obtain ⟨hones, hzeros⟩ := ofNat_ne_of_lt (show 0 < biased by omega) hlt
  have hexponent : ((BitVec.ofNat 11 biased).toNat : Int) - ((Format.binary64.exponentBias : Int) +
      (Format.binary64.mantissaBitsWithoutImplicit : Int)) = e := by
    rw [BitVec.toNat_ofNat]
    change ((biased % 2048 : Nat) : Int) - (1023 + 52) = e
    omega
  have hsign := unpackSign_positive (BitVec.ofNat 11 biased) (BitVec.ofNat 52 m.value)
  rw [m.pack_float hbiased hlt, unpack]
  simp only [unpackMantissa_packComponents, unpackExponent_packComponents, hsign]
  rw [if_neg hones, if_neg hzeros]
  simp only [float, m.toNat_one_append, hexponent]

/-- Cutting the double of a number to a whole number gives the number. -/
theorem toInt_ofNat {n : Nat} (hpos : n ≠ 0) (h : n < 2 ^ 53) (low high : Int) :
    toInt low high ((ofNat n hpos h).float ((n.log2 : Int) - 52)) = n := by
  have hlog : n.log2 ≤ 52 := Nat.le_of_lt_succ ((Nat.log2_lt hpos).2 h)
  have hleft : ((n.log2 : Int) - 52 - 0).toNat = 0 := by omega
  have hright : (0 - ((n.log2 : Int) - 52 - (0 : Nat))).toNat = 52 - n.log2 := by omega
  rw [float, toInt, roundToInt]
  simp only [decreaseExponent, shiftToExponent, hleft, hright, Nat.shiftLeft_zero]
  rw [ofNat, shiftRight_exact]
  rfl

end Significand

/-! ### Reading numbers -/

/-- A number of at most 53 bits is read exactly. -/
theorem unpack_ofScientific {n : Nat} (hpos : n ≠ 0) (h : n < 2 ^ 53) :
    (Float.ofScientific n false 0).toModel.unpack =
      (Significand.ofNat n hpos h).float ((n.log2 : Int) - 52) := by
  have hlog : n.log2 ≤ 52 := Nat.le_of_lt_succ ((Nat.log2_lt hpos).2 h)
  have hone : (Float.ofBits 4607182418800017408).toModel.unpack =
    .finite .positive (2 ^ 52) (-52) (Nat.two_pow_pos 52) := rfl
  have hword : n.toUInt64.toNat = n := by
    rw [Nat.toUInt64_eq, UInt64.toNat_ofNat', Nat.mod_eq_of_lt (by omega)]
  have hexact : n.toUInt64.toFloat.toModel.unpack =
      (Significand.ofNat n hpos h).float ((n.log2 : Int) - 52) := by
    rw [UInt64.toFloat, Float.Model.ofUInt64, ofUInt64, hword, Significand.ofNat_eq hpos h]
    exact Significand.unpack_pack _ (by omega) (by omega)
  have hproduct : Float.ofScientific n false 0 =
      n.toUInt64.toFloat * Float.ofBits 4607182418800017408 := by
    rw [Float.ofScientific, dif_pos ⟨h, by decide⟩]
    rfl
  -- The product with one is written to a word once more.
  rw [hproduct]
  change unpack Format.binary64 (pack Format.binary64 (mul Format.binary64
    n.toUInt64.toFloat.toModel.unpack (Float.ofBits 4607182418800017408).toModel.unpack)) = _
  rw [hexact, hone, Significand.mul_one _ (by omega)]
  exact Significand.unpack_pack _ (by omega) (by omega)

/-- The double that is nearest to a number of at most 53 bits is the number. -/
theorem unpack_nearest {n : Nat} (hpos : n ≠ 0) (h : n < 2 ^ 53) :
    (nearest n 0).toModel.unpack =
      (Significand.ofNat n hpos h).float ((n.log2 : Int) - 52) := by
  have hlength : (Nat.toDigits 10 n).length ≤ 16 :=
    (Nat.length_toDigits_le_iff (by decide) (by decide)).2 (Nat.lt_trans h (by decide))
  have hlow : ¬ (decide (n = 0) || decide (0 + ((Nat.toDigits 10 n).length : Int) <
      -powerLimit)) = true := by
    intro hsmall
    rw [Bool.or_eq_true] at hsmall
    rcases hsmall with hzero | hlow
    · exact hpos (of_decide_eq_true hzero)
    · have hlow' := of_decide_eq_true hlow
      rw [powerLimit] at hlow'
      omega
  have hhigh : ¬ powerLimit < 0 + ((Nat.toDigits 10 n).length : Int) := by
    rw [powerLimit]
    omega
  -- No more digits than a double can have, so the power of ten matters.
  rw [nearest, if_neg hlow, if_neg hhigh]
  exact unpack_ofScientific hpos h

/-- The double that is nearest to a number of at most 53 bits is not negative, and its whole part is
the number. -/
theorem toUInt64_nearest {n : Nat} (h : n < 2 ^ 53) :
    ¬ nearest n 0 < 0.0 ∧ (nearest n 0).toUInt64.toNat = n := by
  by_cases hpos : n = 0
  · subst hpos
    exact ⟨by decide, by decide⟩
  have hunpack := unpack_nearest hpos h
  constructor
  · -- A positive double is above zero.
    have hzero : (0.0 : Float).toModel.unpack = .zero .positive := rfl
    have hless : Float.lt (nearest n 0) 0.0 = decide
        (Float.Model.UnpackedFloat.lt (nearest n 0).toModel.unpack
          (0.0 : Float).toModel.unpack = true) := rfl
    change ¬ Float.lt (nearest n 0) 0.0 = true
    rw [hless, hunpack, hzero]
    exact of_decide_eq_true rfl
  · have hword : n < UInt64.size := Nat.lt_trans h (by decide)
    rw [Float.toUInt64, Float.Model.toUInt64, toUInt64, hunpack, Significand.toInt_ofNat,
      Int.toNat_natCast, UInt64.ofNatClamp, dif_pos hword, UInt64.toNat_ofNatLT]

/-- The double that is nearest to a positive number of 32 bits is finite and not below one, and its
whole part is the number. -/
theorem toUInt32_nearest {n : Nat} (hpos : n ≠ 0) (h : n < 2 ^ 32) :
    (nearest n 0).isFinite = true ∧ 1.0 ≤ nearest n 0 ∧ (nearest n 0).toUInt32.toNat = n := by
  have hwide : n < 2 ^ 53 := Nat.lt_trans h (by decide)
  have hunpack := unpack_nearest hpos hwide
  refine ⟨?_, ?_, ?_⟩
  · rw [Float.isFinite, Float.Model.isFinite, hunpack]
    rfl
  · have hone : (1.0 : Float).toModel.unpack =
      .finite .positive (2 ^ 52) (-52) (Nat.two_pow_pos 52) := rfl
    have hless : Float.le 1.0 (nearest n 0) = decide
        (Float.Model.UnpackedFloat.le (1.0 : Float).toModel.unpack
          (nearest n 0).toModel.unpack = true) := rfl
    change Float.le 1.0 (nearest n 0) = true
    rw [hless, hunpack, hone, decide_eq_true_iff]
    -- The exponents decide, and for one also the significands are the same.
    have hcompare : ((compare (-52 : Int) ((n.log2 : Int) - 52)).then
        (compare (2 ^ 52) (Significand.ofNat n hpos hwide).value)).isLE = true := by
      obtain hlog | hlog := Nat.eq_zero_or_pos n.log2
      · rw [Int.compare_eq_eq.2 (show (-52 : Int) = (n.log2 : Int) - 52 by omega)]
        exact Nat.isLE_compare.2 (Significand.ofNat n hpos hwide).lower
      · rw [Int.compare_eq_lt.2 (show (-52 : Int) < (n.log2 : Int) - 52 by omega)]
        rfl
    exact hcompare
  · have hword : n < UInt32.size := h
    rw [Float.toUInt32, Float.Model.toUInt32, toUInt32, hunpack, Significand.toInt_ofNat,
      Int.toNat_natCast, UInt32.ofNatClamp, dif_pos hword, UInt32.toNat_ofNatLT]

/-- Digits are all part of a number. -/
theorem spanNumber_digits {cs : List Char} (h : ∀ c ∈ cs, c.isDigit = true) :
    spanNumber cs = (cs, []) := by
  induction cs with
  | nil => rfl
  | cons c cs ih =>
    rw [List.forall_mem_cons] at h
    rw [spanNumber, ih h.2]
    simp [h.1]

/-- Digits alone write a whole number. -/
theorem readFloat_digits {cs : List Char} (hne : cs ≠ []) (h : ∀ c ∈ cs, c.isDigit = true) :
    readFloat cs = some (nearest (Text.ofDigits 10 cs) 0) := by
  have hspan : spanDigits cs = (cs, []) := by
    rw [spanDigits, List.takeWhile_eq_self_iff.2 h, List.dropWhile_eq_nil_iff.2 h]
  have hnonempty : cs.isEmpty = false := by
    rwa [List.isEmpty_eq_false_iff]
  rw [readFloat, Literal.read, splitSign_digits h]
  simp only [hspan, spanFraction, hnonempty, readPower, Bool.false_and, Bool.false_eq_true,
    if_false, Option.map_some, List.append_nil, List.length_nil]
  rfl

/-- A number in decimal is a quantity without a unit. -/
theorem readQuantity_toString (n : Nat) : readQuantity (toString n) = some ⟨nearest n 0, ""⟩ := by
  have hdigits := Text.isDigit_of_mem_toString (n := n)
  have hne := Text.toList_toString_ne_nil n
  have htrim : Text.trim (toString n).toList = (toString n).toList := by
    refine Text.trim_of_not_isBlank fun c hc => ?_
    -- Digits are no blanks.
    have hdigit : 48 ≤ c.toNat ∧ c.toNat ≤ 57 := Char.isDigit_iff_toNat.1 (hdigits c hc)
    exact Text.isBlank_eq_false (by omega) (by omega)
  have hsplit : splitQuantity (toString n).toList = ((toString n).toList, []) := by
    revert hdigits hne
    generalize (toString n).toList = cs
    intro hdigits hne
    cases cs with
    | nil => exact absurd rfl hne
    | cons c cs =>
      rw [List.forall_mem_cons] at hdigits
      rw [splitQuantity, spanNumber_digits hdigits.2]
      simp [hdigits.1]
  rw [readQuantity, htrim, hsplit]
  simp only [readFloat_digits hne hdigits, Text.ofDigits_toString, Option.map_some]

end GridStyle.Decimal
