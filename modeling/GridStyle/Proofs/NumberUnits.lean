import GridStyle.Expansion.Declaration
import GridStyle.Function.Builtin
import GridStyle.Proofs.Calc.Evaluation
import GridStyle.Proofs.Calc.Spelling
import GridStyle.Proofs.WrittenNumber

/-!
# Where a Number Ends and Its Unit Begins

CSS writes a number as digits with an optional fraction, an optional sign in front and an optional
power of ten behind (`Numeral`), and its unit follows at once. The number that such a text writes is
read (`Numeral.read_text`), and an expression reads the whole number too
(`Calc.evaluate_text`). Where a unit follows, the number ends in front of a power that has a
sign, since a sign counts at the very front only. So a quantity has the number and the unit that are
written exactly if the power has no sign (`number_splits_from_unit`); otherwise the power belongs to
the unit (`signed_power_in_unit`).
-/

namespace GridStyle

namespace Decimal

open Text (isBlank isBlank_eq_false)

/-! ### Written numbers -/

/-- The sign in front of digits, which need not be there. -/
inductive WrittenSign where
  | absent | plus | minus
  deriving DecidableEq, Repr

/-- How a sign is written. -/
def WrittenSign.text : WrittenSign → List Char
  | absent => []
  | plus => ['+']
  | minus => ['-']

/-- A written power of ten. -/
structure Power where
  /-- The letter in front. -/
  letter : Char
  /-- The sign. -/
  sign : WrittenSign
  /-- The digits. -/
  digits : List Char
  /-- The letter is an `e` in either case. -/
  isLetter : letter = 'e' ∨ letter = 'E'
  /-- The digits are digits. -/
  isDigit : ∀ c ∈ digits, c.isDigit = true
  /-- There is a digit. -/
  ne_nil : digits ≠ []

namespace Power

/-- How the power is written. -/
def text (p : Power) : List Char := p.letter :: (p.sign.text ++ p.digits)

/-- Which power it is. -/
def exponent (p : Power) : Int :=
  if p.sign = .minus then -(Text.ofDigits 10 p.digits : Int) else Text.ofDigits 10 p.digits

end Power

/-- A written number: an optional sign, digits, an optional fraction behind a point, and an optional
power of ten. -/
structure Numeral where
  /-- The sign. -/
  sign : WrittenSign
  /-- The digits in front of the point. -/
  whole : List Char
  /-- The digits behind the point. If there are none there is no point. -/
  fraction : List Char
  /-- The power of ten. -/
  power : Option Power
  /-- The digits are digits. -/
  isDigit : ∀ c ∈ whole ++ fraction, c.isDigit = true
  /-- There is a digit. -/
  ne_nil : whole ++ fraction ≠ []

namespace Numeral

/-- The digits with the point. -/
def digitsText (d : Numeral) : List Char :=
  d.whole ++ if d.fraction = [] then [] else '.' :: d.fraction

/-- The power as it is written, which is nothing if there is none. -/
def powerText (d : Numeral) : List Char := d.power.elim [] Power.text

/-- How the number is written. -/
def text (d : Numeral) : List Char := d.sign.text ++ (d.digitsText ++ d.powerText)

/-- What the number is: its digits, moved by the power and by the length of the fraction. -/
def literal (d : Numeral) : Literal :=
  .finite (d.sign = .minus) (Text.ofDigits 10 (d.whole ++ d.fraction))
    (d.power.elim 0 Power.exponent - d.fraction.length)

/-- The double that the number denotes. -/
def value (d : Numeral) : Float := d.literal.toFloat

/-- The number without its power. -/
def mantissa (d : Numeral) : Numeral := { d with power := none }

/-- The number without its sign. -/
def magnitude (d : Numeral) : Numeral := { d with sign := .absent }

/-- The number has a power with a sign. -/
def hasSignedPower (d : Numeral) : Bool := d.power.any fun p => p.sign ≠ .absent

end Numeral

/-- A text that can be a unit: no digit, point or blank is in it. -/
def IsUnit (u : String) : Prop :=
  ∀ c ∈ u.toList, c.isDigit = false ∧ c ≠ '.' ∧ isBlank c = false

instance : DecidablePred IsUnit := fun u =>
  List.decidableBAll (fun c : Char => c.isDigit = false ∧ c ≠ '.' ∧ isBlank c = false) u.toList

/-- Letters are a unit. -/
theorem isUnit_of_isAlpha {u : String} (h : ∀ c ∈ u.toList, c.isAlpha = true) : IsUnit u := by
  intro c hc
  have hrange : 57 < c.toNat ∧ c.toNat < 128 := Calc.toNat_of_name_start (.inl (h c hc))
  refine ⟨?_, ?_, isBlank_eq_false (by omega) hrange.2⟩
  · rw [Bool.eq_false_iff]
    intro hdigit
    have hle : c.toNat ≤ 57 := (Char.isDigit_iff_toNat.1 hdigit).2
    omega
  · rintro rfl
    exact absurd hrange.1 (by decide)

/-! ### Reading a number -/

/-- The first character, if there is one, is no digit. -/
def StopsDigits (rest : List Char) : Prop := ∀ c ∈ rest.head?, c.isDigit = false

/-- Digits are read up to something else. -/
theorem spanDigits_append_of {ds rest : List Char} (hds : ∀ c ∈ ds, c.isDigit = true)
    (hrest : StopsDigits rest) : spanDigits (ds ++ rest) = (ds, rest) := by
  have hspan : spanDigits rest = ([], rest) := by
    cases rest with
    | nil => rfl
    | cons c cs =>
      have hc : ¬ c.isDigit = true := by simpa using hrest c rfl
      rw [spanDigits, List.takeWhile_cons_of_neg hc, List.dropWhile_cons_of_neg hc]
  rw [spanDigits, Prod.mk.injEq] at hspan
  rw [spanDigits, List.takeWhile_append_of_pos hds, List.dropWhile_append_of_pos hds, hspan.1,
    hspan.2, List.append_nil]

/-- A sign is taken off the front of digits or a point. -/
theorem splitSign_append (sign : WrittenSign) {c : Char} (hc : c.isDigit = true ∨ c = '.')
    (cs : List Char) : splitSign (sign.text ++ c :: cs) = (decide (sign = .minus), c :: cs) := by
  cases sign with
  | absent =>
    have hminus : c ≠ '-' := by rintro rfl; exact absurd hc (by decide)
    have hplus : c ≠ '+' := by rintro rfl; exact absurd hc (by decide)
    change splitSign (c :: cs) = _
    unfold splitSign
    split
    · next heq => exact absurd (List.cons.inj heq).1 hminus
    · next heq => exact absurd (List.cons.inj heq).1 hplus
    · rfl
  | plus => rfl
  | minus => rfl

namespace Power

variable (p : Power)

theorem exists_digits : ∃ c cs, p.digits = c :: cs ∧ c.isDigit = true := by
  obtain ⟨c, cs, hdigits⟩ := List.exists_cons_of_ne_nil p.ne_nil
  exact ⟨c, cs, hdigits, p.isDigit c (hdigits ▸ List.mem_cons_self)⟩

theorem stopsDigits_text : StopsDigits p.text := by
  intro c hc
  obtain rfl : p.letter = c := Option.some.inj hc
  rcases p.isLetter with h | h <;> rw [h] <;> rfl

/-- The power that is written is read. -/
theorem read_text : readPower p.text = some p.exponent := by
  obtain ⟨c, cs, hdigits, hfirst⟩ := p.exists_digits
  have hall : p.digits.all Char.isDigit = true := List.all_eq_true.2 p.isDigit
  have hsplit : splitSign (p.sign.text ++ p.digits) = (decide (p.sign = .minus), p.digits) := by
    rw [hdigits]
    exact splitSign_append p.sign (.inl hfirst) cs
  rw [text, readPower, if_pos p.isLetter, hsplit]
  simp only [hall, List.isEmpty_eq_false_iff.2 p.ne_nil, Bool.not_true, Bool.or_self,
    Bool.false_eq_true, if_false, decide_eq_true_eq, exponent]

end Power

namespace Numeral

variable (d : Numeral)

/-- In front of the power there are digits and a point. -/
theorem mem_digitsText {c : Char} (hc : c ∈ d.digitsText) : c.isDigit = true ∨ c = '.' := by
  rw [digitsText, List.mem_append] at hc
  rcases hc with hc | hc
  · exact .inl (d.isDigit c (List.mem_append_left _ hc))
  · split at hc
    · exact absurd hc List.not_mem_nil
    · rcases List.mem_cons.1 hc with hc | hc
      · exact .inr hc
      · exact .inl (d.isDigit c (List.mem_append_right _ hc))

theorem digitsText_ne_nil : d.digitsText ≠ [] := by
  intro h
  rw [digitsText, List.append_eq_nil_iff] at h
  obtain ⟨hwhole, hfraction⟩ := h
  split at hfraction
  · next hnil => exact d.ne_nil (by rw [hwhole, hnil, List.append_nil])
  · exact absurd hfraction (List.cons_ne_nil _ _)

/-- A number starts with a digit or a point, apart from the sign. -/
theorem exists_digitsText :
    ∃ c cs, d.digitsText = c :: cs ∧ (c.isDigit = true ∨ c = '.') := by
  obtain ⟨c, cs, hdigits⟩ := List.exists_cons_of_ne_nil d.digitsText_ne_nil
  exact ⟨c, cs, hdigits, d.mem_digitsText (hdigits ▸ List.mem_cons_self)⟩

theorem stopsDigits_powerText : StopsDigits d.powerText := by
  rw [powerText]
  cases d.power with
  | none => exact fun c hc => absurd hc (Option.not_mem_none c)
  | some p => exact p.stopsDigits_text

/-- The digits of a number are read up to the power. -/
theorem span_digitsText : ∃ afterWhole, spanDigits (d.digitsText ++ d.powerText) =
    (d.whole, afterWhole) ∧ spanFraction afterWhole = (d.fraction, d.powerText) := by
  have hwhole : ∀ c ∈ d.whole, c.isDigit = true := fun c hc =>
    d.isDigit c (List.mem_append_left _ hc)
  have hfraction : ∀ c ∈ d.fraction, c.isDigit = true := fun c hc =>
    d.isDigit c (List.mem_append_right _ hc)
  by_cases hnil : d.fraction = []
  · refine ⟨d.powerText, ?_, ?_⟩
    · rw [digitsText, if_pos hnil, List.append_nil]
      exact spanDigits_append_of hwhole d.stopsDigits_powerText
    -- A power does not begin with a point.
    · rw [hnil, powerText]
      cases d.power with
      | none => rfl
      | some p =>
        rw [Option.elim_some, Power.text]
        rcases p.isLetter with h | h <;> rw [h] <;> rfl
  · refine ⟨'.' :: (d.fraction ++ d.powerText), ?_, ?_⟩
    · rw [digitsText, if_neg hnil, List.append_assoc]
      refine spanDigits_append_of hwhole fun c hc => ?_
      obtain rfl : '.' = c := Option.some.inj hc
      rfl
    · exact spanDigits_append_of hfraction d.stopsDigits_powerText

/-- The number that is written is read. -/
theorem read_text : Literal.read d.text = some d.literal := by
  obtain ⟨c, cs, hdigits, hfirst⟩ := d.exists_digitsText
  have hsplit : splitSign d.text = (decide (d.sign = .minus), d.digitsText ++ d.powerText) := by
    rw [text, hdigits]
    exact splitSign_append d.sign hfirst _
  obtain ⟨afterWhole, hwhole, hfraction⟩ := d.span_digitsText
  have hsome : (d.whole.isEmpty && d.fraction.isEmpty) = false := by
    rw [Bool.eq_false_iff, ne_eq, Bool.and_eq_true, List.isEmpty_iff, List.isEmpty_iff]
    exact fun h => d.ne_nil (List.append_eq_nil_iff.2 h)
  have hpower : readPower d.powerText = some (d.power.elim 0 Power.exponent) := by
    rw [powerText]
    cases d.power with
    | none => rfl
    | some p => exact p.read_text
  rw [Literal.read, hsplit]
  simp only [hwhole, hfraction, hsome, hpower, Bool.false_eq_true, if_false, Option.map_some,
    literal]

theorem readFloat_text : readFloat d.text = some d.value := by
  rw [readFloat, d.read_text]
  rfl

/-- The sign of a number negates its magnitude. -/
theorem value_eq : d.value = if d.sign = .minus then -d.magnitude.value else d.magnitude.value := by
  simp [value, literal, Literal.toFloat, magnitude]

/-- No blank is in a written number, and no parenthesis. -/
theorem mem_text {c : Char} (hc : c ∈ d.text) : isBlank c = false ∧ c ≠ '(' := by
  have hdigit {c : Char} (h : c.isDigit = true) : isBlank c = false ∧ c ≠ '(' := by
    have hrange : 48 ≤ c.toNat ∧ c.toNat ≤ 57 := Char.isDigit_iff_toNat.1 h
    exact ⟨isBlank_eq_false (by omega) (by omega), ne_of_isDigit h (by decide)⟩
  have hsign {s : WrittenSign} {c : Char} (h : c ∈ s.text) : isBlank c = false ∧ c ≠ '(' := by
    cases s with
    | absent => exact absurd h List.not_mem_nil
    | plus => obtain rfl := List.mem_singleton.1 h; decide
    | minus => obtain rfl := List.mem_singleton.1 h; decide
  rw [text, List.mem_append, List.mem_append] at hc
  rcases hc with hc | hc | hc
  · exact hsign hc
  · rcases d.mem_digitsText hc with h | rfl
    · exact hdigit h
    · decide
  · rw [powerText] at hc
    cases hpower : d.power with
    | none =>
      rw [hpower] at hc
      exact absurd hc List.not_mem_nil
    | some p =>
      rw [hpower, Option.elim_some, Power.text, List.mem_cons, List.mem_append] at hc
      rcases hc with rfl | hc | hc
      · rcases p.isLetter with h | h <;> rw [h] <;> decide
      · exact hsign hc
      · exact hdigit (p.isDigit c hc)

end Numeral

/-! ### Cutting off the unit -/

/-- A unit does not go on with the number in front of it. -/
theorem spanNumber_unit {u : String} (hu : IsUnit u) : spanNumber u.toList = ([], u.toList) := by
  revert hu
  rw [IsUnit]
  cases u.toList with
  | nil => exact fun _ => rfl
  | cons c cs =>
    intro hu
    rw [List.forall_mem_cons] at hu
    obtain ⟨⟨hdigit, hpoint, -⟩, hcs⟩ := hu
    have hnext : cs.head?.any Char.isDigit = false := by
      cases cs with
      | nil => rfl
      | cons c' cs => exact (hcs c' List.mem_cons_self).1
    simp [spanNumber, hdigit, hpoint, hnext]

/-- Digits and points belong to the number. -/
theorem spanNumber_append_of {cs : List Char} (h : ∀ c ∈ cs, c.isDigit = true ∨ c = '.')
    (rest : List Char) :
    spanNumber (cs ++ rest) = (cs ++ (spanNumber rest).1, (spanNumber rest).2) := by
  induction cs with
  | nil => rfl
  | cons c cs ih =>
    rw [List.forall_mem_cons] at h
    have hgoes : (c.isDigit || c == '.') = true := by simpa using h.1
    rw [List.cons_append, spanNumber, ih h.2]
    simp [hgoes]

/-- A power belongs to the number if it has no sign, and otherwise to the unit. -/
theorem Power.spanNumber_text (p : Power) {u : String} (hu : IsUnit u) :
    spanNumber (p.text ++ u.toList) =
      if p.sign = .absent then (p.text, u.toList) else ([], p.text ++ u.toList) := by
  have hletter : p.letter.isDigit = false ∧ p.letter ≠ '.' := by
    rcases p.isLetter with h | h <;> rw [h] <;> decide
  have hpower : p.letter == 'e' || p.letter == 'E' := by simpa using p.isLetter
  obtain ⟨c, cs, hdigits, hfirst⟩ := p.exists_digits
  rw [text, List.cons_append, spanNumber]
  -- What is behind the letter decides.
  cases hsign : p.sign with
  | absent =>
    have hspan : spanNumber (p.digits ++ u.toList) = (p.digits, u.toList) := by
      rw [spanNumber_append_of fun c hc => .inl (p.isDigit c hc), spanNumber_unit hu,
        List.append_nil]
    have hnext : (p.digits ++ u.toList).head?.any Char.isDigit = true := by
      rw [hdigits]
      exact hfirst
    simp only [WrittenSign.text, List.nil_append, hpower, hnext, hspan, Bool.and_true, Bool.or_true,
      if_true]
  | plus => simp [hletter, WrittenSign.text]
  | minus => simp [hletter, WrittenSign.text]

/-- At the front a sign belongs to the number, as do digits and points. -/
theorem splitQuantity_append (sign : WrittenSign) {cs : List Char} (hne : cs ≠ [])
    (h : ∀ c ∈ cs, c.isDigit = true ∨ c = '.') (rest : List Char) :
    splitQuantity (sign.text ++ (cs ++ rest)) =
      (sign.text ++ (cs ++ (spanNumber rest).1), (spanNumber rest).2) := by
  have hspan := spanNumber_append_of h rest
  cases sign with
  | absent =>
    obtain ⟨c, cs, rfl⟩ := List.exists_cons_of_ne_nil hne
    rw [List.forall_mem_cons] at h
    have hgoes : (c.isDigit || c == '.' || c == '-' || c == '+') = true := by
      have : (c.isDigit || c == '.') = true := by simpa using h.1
      rw [this, Bool.true_or, Bool.true_or]
    change splitQuantity (c :: (cs ++ rest)) = _
    rw [splitQuantity, if_pos hgoes, spanNumber_append_of h.2]
    rfl
  | plus =>
    change splitQuantity ('+' :: (cs ++ rest)) = _
    rw [splitQuantity, hspan]
    rfl
  | minus =>
    change splitQuantity ('-' :: (cs ++ rest)) = _
    rw [splitQuantity, hspan]
    rfl

namespace Numeral

variable (d : Numeral)

/-- The number and the unit that a quantity is cut into. -/
theorem splitQuantity_text {u : String} (hu : IsUnit u) :
    splitQuantity (d.text ++ u.toList) =
      if d.hasSignedPower then (d.mantissa.text, d.powerText ++ u.toList)
      else (d.text, u.toList) := by
  have hcut := splitQuantity_append d.sign d.digitsText_ne_nil
    (fun c hc => d.mem_digitsText hc) (d.powerText ++ u.toList)
  have hmantissa : d.mantissa.text = d.sign.text ++ d.digitsText := by
    change d.sign.text ++ (d.digitsText ++ []) = _
    rw [List.append_nil]
  rw [hmantissa, text, List.append_assoc, List.append_assoc, hcut, powerText, hasSignedPower]
  cases d.power with
  | none =>
    rw [Option.elim_none, List.nil_append, spanNumber_unit hu]
    rfl
  | some p =>
    rw [Option.elim_some, p.spanNumber_text hu]
    by_cases hsign : p.sign = .absent <;> simp [hsign]

/-- A quantity has the number and the unit that are written if no power has a sign, and otherwise
the number without the power. -/
theorem readQuantity_text {u : String} (hu : IsUnit u) :
    readQuantity (String.ofList d.text ++ u) =
      some (if d.hasSignedPower then ⟨d.mantissa.value, String.ofList d.powerText ++ u⟩
        else ⟨d.value, u⟩) := by
  have htrim : Text.trim (d.text ++ u.toList) = d.text ++ u.toList := by
    refine Text.trim_of_not_isBlank fun c hc => ?_
    rcases List.mem_append.1 hc with hc | hc
    · exact (d.mem_text hc).1
    · exact (hu c hc).2.2
  rw [readQuantity, String.toList_append, String.toList_ofList, htrim, d.splitQuantity_text hu]
  cases d.hasSignedPower with
  | true => simp [d.mantissa.readFloat_text]
  | false => simp [d.readFloat_text]

/-- A digit is in a written number. -/
theorem exists_isDigit : ∃ c ∈ d.text, c.isDigit = true := by
  obtain ⟨c, hc⟩ := List.exists_mem_of_ne_nil _ d.ne_nil
  refine ⟨c, ?_, d.isDigit c hc⟩
  rw [text, digitsText]
  rw [List.mem_append] at hc
  rcases hc with hc | hc
  · exact List.mem_append_right _ (List.mem_append_left _ (List.mem_append_left _ hc))
  · have hne : d.fraction ≠ [] := List.ne_nil_of_mem hc
    rw [if_neg hne]
    exact List.mem_append_right _ (List.mem_append_left _
      (List.mem_append_right _ (List.mem_cons_of_mem _ hc)))

end Numeral

end Decimal

/-! ### Expressions -/

namespace Calc

open Decimal (Numeral WrittenSign)

/-- Digits and points go on a number, whatever is in front of them. -/
theorem isChain_append_digits {cs rest : List Char} (h : ∀ c ∈ cs, c.isDigit = true ∨ c = '.')
    (hrest : ∀ before, (before :: rest).IsChain NumeralStep) (before : Char) :
    (before :: (cs ++ rest)).IsChain NumeralStep := by
  induction cs generalizing before with
  | nil => exact hrest before
  | cons c cs ih =>
    rw [List.forall_mem_cons] at h
    rw [List.cons_append, List.isChain_cons_cons]
    exact ⟨h.1.imp_right .inl, ih h.2 c⟩

/-- So does a power, with a sign or without. -/
theorem isChain_powerText (p : Decimal.Power) (before : Char) :
    (before :: p.text).IsChain NumeralStep := by
  have hdigits (before : Char) : (before :: p.digits).IsChain NumeralStep := by
    have h : (before :: (p.digits ++ [])).IsChain NumeralStep :=
      isChain_append_digits (fun c hc => .inl (p.isDigit c hc)) (fun _ => List.isChain_singleton _)
        before
    rwa [List.append_nil] at h
  rw [Decimal.Power.text, List.isChain_cons_cons]
  refine ⟨.inr (.inr (p.isLetter.elim .inl fun h => .inr (.inl h))), ?_⟩
  have hsign : ∀ c, c = '-' ∨ c = '+' → NumeralStep p.letter c :=
    fun c hc => .inr (.inr (.inr (.inr ⟨hc, p.isLetter⟩)))
  cases p.sign with
  | absent => exact hdigits p.letter
  | plus => exact List.isChain_cons_cons.2 ⟨hsign _ (.inr rfl), hdigits '+'⟩
  | minus => exact List.isChain_cons_cons.2 ⟨hsign _ (.inl rfl), hdigits '-'⟩

/-- A number without a sign in front is one word. -/
theorem isNumeral_magnitude (d : Numeral) : IsNumeral d.magnitude.text := by
  have hchain (before : Char) : (before :: (d.digitsText ++ d.powerText)).IsChain NumeralStep := by
    refine isChain_append_digits (fun c hc => d.mem_digitsText hc) (fun before => ?_) before
    rw [Numeral.powerText]
    cases d.power with
    | none => exact List.isChain_singleton _
    | some p => exact isChain_powerText p before
  obtain ⟨c, cs, hdigits, hfirst⟩ := d.exists_digitsText
  have htext : d.magnitude.text = c :: (cs ++ d.powerText) := by
    change d.digitsText ++ d.powerText = _
    rw [hdigits]
    rfl
  rw [htext]
  refine ⟨hfirst, ?_⟩
  have h := hchain c
  rw [hdigits, List.cons_append, List.isChain_cons_cons] at h
  exact h.2

/-- The operators that a sign is read as. -/
def signLexemes {α : Type} : WrittenSign → List (Lexeme α)
  | .absent => []
  | .plus => [.operator .plus]
  | .minus => [.operator .minus]

/-- The words of a number are its sign and all the rest of it. -/
theorem lexemes_text (d : Numeral) :
    lexemes .double (String.ofList d.text) =
      .ok (signLexemes d.sign ++ [.number d.magnitude.value]) := by
  have hnumber (done : List (Lexeme Float)) :
      lexFrom .double done .nothing d.magnitude.text =
        .ok (done.reverse ++ [.number d.magnitude.value]) := by
    have hspells : Spells .double (.number d.magnitude.value) (String.ofList d.magnitude.text) := by
      rw [Spells, String.toList_ofList]
      exact ⟨isNumeral_magnitude d, d.magnitude.readFloat_text⟩
    have h := lexFrom_intercalate (.cons hspells .nil) done
    rwa [List.map_singleton, List.intercalate_singleton, String.toList_ofList] at h
  rw [lexemes, String.toList_ofList]
  have htext : d.text = d.sign.text ++ d.magnitude.text := rfl
  rw [htext]
  cases d.sign with
  | absent => exact hnumber []
  | plus => exact hnumber [.operator .plus]
  | minus => exact hnumber [.operator .minus]

/-- An expression that is a written number has its value, whatever the power is. -/
theorem evaluate_text (names : String → Option Float) (d : Numeral) :
    evaluate .double names (String.ofList d.text) = .ok d.value := by
  have hunary : Derives (.term .unary (.number d.magnitude.value)) [.number d.magnitude.value] :=
    .unsigned (.base .number)
  have hsum {e : Expr Float} {ls : List (Lexeme Float)} (h : Derives (.term .unary e) ls) :
      evaluateLexemes .double names ls = e.value .double names := by
    have hderives := Derives.sum (.product h .product_end) .sum_end
    rw [List.append_nil, List.append_nil] at hderives
    exact evaluateLexemes_of_derives hderives
  have hsigned (negative : Bool) : Derives (.term .unary
      (.signed negative (.number d.magnitude.value)))
        [.operator (signOf negative), .number d.magnitude.value] := .signed hunary
  rw [evaluate, lexemes_text, d.value_eq]
  cases d.sign with
  | absent => exact hsum hunary
  | plus => exact hsum (hsigned false)
  | minus => exact hsum (hsigned true)

end Calc

/-! ### Times and counts -/

namespace Animation

open Decimal

/-- A digit is in no keyword. -/
theorem not_mem_keywords_of_isDigit {word : String} (h : ∃ c ∈ word.toList, c.isDigit = true) :
    word ∉ keywords := by
  have hkeywords : ∀ keyword ∈ keywords, ¬ keyword.toList.any Char.isDigit = true := by decide
  exact fun hmem => hkeywords word hmem (List.any_eq_true.2 h)

/-- A written time or count is taken for a name exactly if its power has a sign. -/
theorem isName_text (d : Numeral) {u : String} (hu : u ∈ timeUnits) :
    isName (String.ofList d.text ++ u) = d.hasSignedPower := by
  have hunit : IsUnit u := by
    have halpha : ∀ u ∈ timeUnits, u.toList.all Char.isAlpha = true := by decide
    exact isUnit_of_isAlpha (List.all_eq_true.1 (halpha u hu))
  have hcalls : ∀ u ∈ timeUnits, '(' ∉ u.toList := by decide
  have hletters : ∀ u ∈ timeUnits, u.toList.head? ≠ some 'e' ∧ u.toList.head? ≠ some 'E' := by
    decide
  have hkeyword : String.ofList d.text ++ u ∉ keywords := by
    refine not_mem_keywords_of_isDigit ?_
    rw [String.toList_append, String.toList_ofList]
    exact d.exists_isDigit.imp fun c hc => ⟨List.mem_append_left _ hc.1, hc.2⟩
  have hcall : '(' ∉ (String.ofList d.text ++ u).toList := by
    rw [String.toList_append, String.toList_ofList, List.mem_append, not_or]
    exact ⟨fun hmem => (d.mem_text hmem).2 rfl, hcalls u hu⟩
  rw [isName, if_neg (not_or.2 ⟨hkeyword, hcall⟩), d.readQuantity_text hunit]
  cases hsigned : d.hasSignedPower with
  | false => simpa using hu
  | true =>
    -- A unit that begins with a power is no unit of times.
    rw [Numeral.hasSignedPower, Option.any_eq_true] at hsigned
    obtain ⟨p, hp, -⟩ := hsigned
    have hnot : String.ofList d.powerText ++ u ∉ timeUnits := by
      intro hmem
      have hhead : (String.ofList d.powerText ++ u).toList.head? = some p.letter := by
        rw [String.toList_append, String.toList_ofList, Numeral.powerText, hp]
        rfl
      have hletter := hletters _ hmem
      rw [hhead] at hletter
      rcases p.isLetter with h | h
      · exact hletter.1 (by rw [h])
      · exact hletter.2 (by rw [h])
    simpa using hnot

end Animation

open Decimal

/-- A written number with a unit behind it is read as that number with that unit if it has no power
with a sign. Then a time or a count is no name, and a count counts as many repetitions as it says.
Otherwise the number ends in front of the power, and the power belongs to the unit. As an
expression, the number is read with its power in either case. -/
theorem number_splits_from_unit (d : Numeral) {u : String} (hu : IsUnit u) :
    (d.hasSignedPower = false →
      readQuantity (String.ofList d.text ++ u) = some ⟨d.value, u⟩) ∧
    (d.hasSignedPower = true →
      readQuantity (String.ofList d.text ++ u) =
        some ⟨d.mantissa.value, String.ofList d.powerText ++ u⟩) ∧
    (u ∈ Animation.timeUnits →
      Animation.isName (String.ofList d.text ++ u) = d.hasSignedPower) ∧
    Builtin.repetitions (String.ofList d.text ++ u) =
      (let count := if d.hasSignedPower then d.mantissa.value else d.value
      if count < 0.0 then none else some count.toUInt64.toNat) ∧
    ∀ names, Calc.evaluate .double names (String.ofList d.text) = .ok d.value := by
  have hread := d.readQuantity_text hu
  refine ⟨fun hsigned => ?_, fun hsigned => ?_, fun htime => Animation.isName_text d htime, ?_,
    fun names => Calc.evaluate_text names d⟩
  · rw [hread, hsigned]
    rfl
  · rw [hread, hsigned]
    rfl
  · rw [Builtin.repetitions, hread, Option.bind_some]
    cases d.hasSignedPower <;> rfl

/-- The number `-1.5e3`. -/
def Decimal.Numeral.shifted : Numeral where
  sign := .minus
  whole := ['1']
  fraction := ['5']
  power := some ⟨'e', .absent, ['3'], .inl rfl, Text.forall_mem_of_all rfl, by decide⟩
  isDigit := Text.forall_mem_of_all rfl
  ne_nil := by decide

/-- A time with a fraction and a power. -/
theorem number_splits_from_unit_shifted :
    IsUnit "ms" ∧
      readQuantity "-1.5e3ms" = some ⟨(Literal.finite true 15 2).toFloat, "ms"⟩ ∧
      Animation.isName "-1.5e3ms" = false ∧
      ∀ names, Calc.evaluate .double names "-1.5e3" = .ok (Literal.finite true 15 2).toFloat := by
  have hunit : IsUnit "ms" := isUnit_of_isAlpha (List.all_eq_true.1 rfl)
  obtain ⟨hread, -, hname, -, hcalc⟩ := number_splits_from_unit Numeral.shifted hunit
  exact ⟨hunit, hread rfl, hname (by decide), hcalc⟩

/-- The number `1e-3`. -/
def Decimal.Numeral.thousandth : Numeral where
  sign := .absent
  whole := ['1']
  fraction := []
  power := some ⟨'e', .minus, ['3'], .inl rfl, Text.forall_mem_of_all rfl, by decide⟩
  isDigit := Text.forall_mem_of_all rfl
  ne_nil := by decide

/-- A thousandth of a second is read as one of a unit that there is not, so it is taken for a name.
In an expression the number is a thousandth. -/
theorem signed_power_in_unit :
    readQuantity "1e-3s" = some ⟨(Literal.finite false 1 0).toFloat, "e-3s"⟩ ∧
      readQuantity "1e-3s" ≠ some ⟨Numeral.thousandth.value, "s"⟩ ∧
      Animation.isName "1e-3s" = true ∧
      ∀ names, Calc.evaluate .double names "1e-3" = .ok Numeral.thousandth.value := by
  have hunit : IsUnit "s" := isUnit_of_isAlpha (List.all_eq_true.1 rfl)
  have hread : readQuantity "1e-3s" = some ⟨(Literal.finite false 1 0).toFloat, "e-3s"⟩ := by
    have hmantissa : Numeral.thousandth.mantissa.literal = .finite false 1 0 := by decide
    have h := Numeral.thousandth.readQuantity_text hunit
    rw [if_pos (show Numeral.thousandth.hasSignedPower = true from rfl), Numeral.value,
      hmantissa] at h
    exact h
  have hname : Animation.isName "1e-3s" = true :=
    Animation.isName_text Numeral.thousandth (show "s" ∈ Animation.timeUnits by decide)
  refine ⟨hread, fun h => ?_, hname, fun names => Calc.evaluate_text names Numeral.thousandth⟩
  rw [hread] at h
  exact absurd (congrArg Quantity.unit (Option.some.inj h)) (by decide)

end GridStyle
