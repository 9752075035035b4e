import GridStyle.Decimal.Integer
import GridStyle.Proofs.Digits
import GridStyle.Proofs.Trimming
import Mathlib

/-!
# Written Numbers

What the readers of whole numbers accept, said without them: digits (`Writes`), digits behind an
optional plus sign (`WritesUnsigned`) and digits behind an optional sign (`WritesSigned`). A reader
takes exactly such texts of numbers in its range (`readUnsigned_eq_some_iff`,
`readSigned_eq_some_iff`), so a text with a sign is read as the word of the number that it writes if
there is one (`readInt64_eq`).
-/

namespace GridStyle.Decimal

open Text (isBlank isBlank_eq_false)

/-- The text is digits, and they write the number. Zeros in front do not matter. -/
structure Writes (n : Nat) (cs : List Char) : Prop where
  /-- There is a digit. -/
  ne_nil : cs ≠ []
  /-- There is nothing else. -/
  isDigit : ∀ c ∈ cs, c.isDigit = true
  /-- They write the number. -/
  value : Text.ofDigits 10 cs = n

/-- The text writes a number, with a plus sign in front or without. -/
inductive WritesUnsigned (n : Nat) : List Char → Prop
  | plain {cs : List Char} (h : Writes n cs) : WritesUnsigned n cs
  | plus {cs : List Char} (h : Writes n cs) : WritesUnsigned n ('+' :: cs)

/-- The text writes a number, with a sign in front or without. -/
inductive WritesSigned : Int → List Char → Prop
  | unsigned {n : Nat} {cs : List Char} (h : WritesUnsigned n cs) : WritesSigned n cs
  | minus {n : Nat} {cs : List Char} (h : Writes n cs) : WritesSigned (-n) ('-' :: cs)

variable {n : Nat} {cs : List Char}

/-- A digit is no letter, no sign and no blank. -/
theorem ne_of_isDigit {c d : Char} (hc : c.isDigit = true) (hd : d.isDigit = false) : c ≠ d := by
  rintro rfl
  rw [hc] at hd
  exact absurd hd (by decide)

namespace Writes

theorem exists_isDigit (h : Writes n cs) : ∃ c ∈ cs, c.isDigit = true :=
  (List.exists_mem_of_ne_nil cs h.ne_nil).imp fun c hc => ⟨hc, h.isDigit c hc⟩

theorem not_mem (h : Writes n cs) {c : Char} (hc : c.isDigit = false) : c ∉ cs := fun hmem =>
  ne_of_isDigit (h.isDigit c hmem) hc rfl

end Writes

/-- What writes an unsigned number is digits and plus signs. -/
theorem WritesUnsigned.of_mem (h : WritesUnsigned n cs) {c : Char} (hc : c ∈ cs) :
    c.isDigit = true ∨ c = '+' := by
  cases h with
  | plain h => exact .inl (h.isDigit c hc)
  | plus h => exact (List.mem_cons.1 hc).symm.imp_left (h.isDigit c)

theorem WritesUnsigned.ne_nil (h : WritesUnsigned n cs) : cs ≠ [] := by
  cases h with
  | plain h => exact h.ne_nil
  | plus h => exact List.cons_ne_nil _ _

/-- No blank is in what writes an unsigned number. -/
theorem WritesUnsigned.not_isBlank (h : WritesUnsigned n cs) : ∀ c ∈ cs, isBlank c = false := by
  intro c hc
  rcases h.of_mem hc with hdigit | rfl
  · have hrange : 48 ≤ c.toNat ∧ c.toNat ≤ 57 := Char.isDigit_iff_toNat.1 hdigit
    exact isBlank_eq_false (by omega) (by omega)
  · decide

/-- What writes a signed number is digits and signs. -/
theorem WritesSigned.of_mem {i : Int} {cs : List Char} (h : WritesSigned i cs) {c : Char}
    (hc : c ∈ cs) : c.isDigit = true ∨ c = '+' ∨ c = '-' := by
  cases h with
  | unsigned h => exact (h.of_mem hc).imp_right .inl
  | minus h =>
    rw [List.mem_cons] at hc
    exact hc.symm.imp (h.isDigit c) .inr

/-- A digit is in what writes a signed number. -/
theorem WritesSigned.exists_isDigit {i : Int} {cs : List Char} (h : WritesSigned i cs) :
    ∃ c ∈ cs, c.isDigit = true := by
  cases h with
  | unsigned h =>
    cases h with
    | plain h => exact h.exists_isDigit
    | plus h => exact h.exists_isDigit.imp fun _ hc => ⟨List.mem_cons_of_mem _ hc.1, hc.2⟩
  | minus h => exact h.exists_isDigit.imp fun _ hc => ⟨List.mem_cons_of_mem _ hc.1, hc.2⟩

/-! ### Readers -/

theorem readDigits_eq_some_iff : readDigits cs = some n ↔ Writes n cs := by
  rw [readDigits]
  constructor
  · intro h
    split at h
    · exact absurd h (by simp)
    · next hcs =>
      simp only [Bool.or_eq_true, List.isEmpty_iff, Bool.not_eq_true', not_or, Bool.not_eq_false,
        List.all_eq_true] at hcs
      exact ⟨hcs.1, hcs.2, Option.some.inj h⟩
  · rintro ⟨hne, hdigit, rfl⟩
    have hall : cs.all Char.isDigit = true := List.all_eq_true.2 hdigit
    have hempty : cs.isEmpty = false := List.isEmpty_eq_false_iff.2 hne
    rw [hall, hempty]
    rfl

/-- The unsigned reader takes off one plus sign. -/
theorem readUnsigned_eq_some_iff {bound : Nat} :
    readUnsigned bound cs = some n ↔ WritesUnsigned n cs ∧ n < bound := by
  unfold readUnsigned
  simp only [Option.filter_eq_some_iff, decide_eq_true_iff]
  refine and_congr_left fun _ => ?_
  split
  · next ds =>
    rw [readDigits_eq_some_iff]
    refine ⟨.plus, fun h => ?_⟩
    cases h with
    | plain h => exact absurd List.mem_cons_self (h.not_mem (by decide))
    | plus h => exact h
  · next hplus =>
    rw [readDigits_eq_some_iff]
    refine ⟨.plain, fun h => ?_⟩
    cases h with
    | plain h => exact h
    | plus h => exact absurd rfl (hplus _)

/-- A digit is no sign. -/
theorem splitSign_digits (h : ∀ c ∈ cs, c.isDigit = true) : splitSign cs = (false, cs) := by
  unfold splitSign
  split
  · exact absurd (h '-' List.mem_cons_self) (by decide)
  · exact absurd (h '+' List.mem_cons_self) (by decide)
  · rfl

/-- The signed reader takes off one sign. -/
theorem readSigned_eq_some_iff {bound : Nat} (hbound : 0 < bound) {i : Int} :
    readSigned bound cs = some i ↔ WritesSigned i cs ∧ -(bound : Int) ≤ i ∧ i < bound := by
  rw [readSigned]
  constructor
  · intro h
    refine ⟨?_, readSigned_bounds hbound h⟩
    rw [Option.bind_eq_some_iff] at h
    obtain ⟨n, hn, h⟩ := h
    rw [readDigits_eq_some_iff] at hn
    -- One case for each sign, and one for none.
    revert hn h
    fun_cases splitSign cs with
    | case1 ds =>
      intro hn h
      obtain rfl : -(n : Int) = i := by simpa using (Option.ite_none_right_eq_some.1 h).2
      exact .minus hn
    | case2 ds =>
      intro hn h
      obtain rfl : (n : Int) = i := by simpa using (Option.ite_none_right_eq_some.1 h).2
      exact .unsigned (.plus hn)
    | case3 ds =>
      intro hn h
      obtain rfl : (n : Int) = i := by simpa using (Option.ite_none_right_eq_some.1 h).2
      exact .unsigned (.plain hn)
  · rintro ⟨h, hlow, hhigh⟩
    cases h with
    | @unsigned n _ h =>
      have hsplit : ∃ ds, splitSign cs = (false, ds) ∧ Writes n ds := by
        cases h with
        | plain h => exact ⟨cs, splitSign_digits h.isDigit, h⟩
        | plus h => exact ⟨_, rfl, h⟩
      obtain ⟨ds, hsplit, hds⟩ := hsplit
      have hlt := Int.ofNat_lt.1 hhigh
      simp [hsplit, readDigits_eq_some_iff.2 hds, hlt]
    | @minus n ds h =>
      have hle : n ≤ bound := by omega
      simp [splitSign, readDigits_eq_some_iff.2 h, hle]

/-! ### Words -/

/-- The word with a value of 64 bits with sign. -/
def word? (i : Int) : Option Int64 :=
  if -2 ^ 63 ≤ i ∧ i < 2 ^ 63 then some (Int64.ofInt i) else none

theorem toInt_of_word? {i : Int} {w : Int64} (h : word? i = some w) : w.toInt = i := by
  obtain ⟨hrange, hw⟩ := Option.ite_none_right_eq_some.1 h
  rw [← Option.some.inj hw, Int64.toInt_ofInt_of_le hrange.1 hrange.2]

/-- A text writes one signed number. -/
theorem WritesSigned.unique {i j : Int} {cs : List Char} (h : WritesSigned i cs)
    (h' : WritesSigned j cs) : i = j := by
  -- Both numbers are in the range of some reader.
  have hread : ∀ {i : Int}, WritesSigned i cs → ∀ bound : Nat, i.natAbs < bound →
      readSigned bound cs = some i := fun h bound hbound =>
    (readSigned_eq_some_iff (Nat.zero_lt_of_lt hbound)).2 ⟨h, by omega, by omega⟩
  have hi := hread h (i.natAbs + j.natAbs + 1) (by omega)
  rw [hread h' (i.natAbs + j.natAbs + 1) (by omega)] at hi
  exact (Option.some.inj hi).symm

/-- A signed number is read if it is a word. -/
theorem readInt64_eq {i : Int} {cs : List Char} (h : WritesSigned i cs) :
    readInt64 cs = word? i := by
  rw [readInt64, word?]
  split
  · next hrange =>
    rw [(readSigned_eq_some_iff (by decide)).2 ⟨h, hrange⟩, Option.map_some]
  · next hrange =>
    rw [Option.map_eq_none_iff, Option.eq_none_iff_forall_ne_some]
    intro j hj
    obtain ⟨hwrites, hbounds⟩ := (readSigned_eq_some_iff (by decide)).1 hj
    exact hrange (h.unique hwrites ▸ hbounds)

end GridStyle.Decimal
