import GridStyle.Text.Digit
import Mathlib.Data.List.Basic
import Std.Data.String.ToNat

/-!
# Numbers in Decimal

A number in decimal is a run of digits that writes it (`ofDigits_toString`). Where no digit goes on,
a text with a number in front determines the number (`toString_append_inj`), and so does a text with
a number at its end (`append_toString_inj`).
-/

namespace GridStyle.Text

/-- A number in decimal is a run of digits. -/
theorem isDigit_of_mem_toString {n : Nat} : ∀ c ∈ (toString n).toList, c.isDigit = true := by
  intro c hc
  rw [Nat.toString_eq_repr, Nat.repr, String.toList_ofList] at hc
  exact Nat.isDigit_of_mem_toDigits (by decide) (by decide) hc

/-- A number in decimal has a digit. -/
theorem toList_toString_ne_nil (n : Nat) : (toString n).toList ≠ [] := by
  rw [Nat.toString_eq_repr, Nat.repr, String.toList_ofList]
  exact Nat.toDigits_ne_nil

/-- A run of digits and what follows it are determined by the whole, if no digit follows. -/
theorem digits_append_inj {ds ds' rest rest' : List Char}
    (hds : ∀ c ∈ ds, c.isDigit = true) (hds' : ∀ c ∈ ds', c.isDigit = true)
    (hrest : ∀ c ∈ rest.head?, c.isDigit = false) (hrest' : ∀ c ∈ rest'.head?, c.isDigit = false)
    (h : ds ++ rest = ds' ++ rest') : ds = ds' ∧ rest = rest' := by
  induction ds generalizing ds' with
  | nil =>
    cases ds' with
    | nil => exact ⟨rfl, h⟩
    | cons d ds' =>
      -- One run is over, so the other cannot go on with a digit.
      rw [List.nil_append] at h
      have hd := hrest d (by rw [h]; exact Option.mem_some_self d)
      rw [hds' d List.mem_cons_self] at hd
      exact absurd hd (by decide)
  | cons d ds ih =>
    cases ds' with
    | nil =>
      rw [List.nil_append] at h
      have hd := hrest' d (by rw [← h]; exact Option.mem_some_self d)
      rw [hds d List.mem_cons_self] at hd
      exact absurd hd (by decide)
    | cons d' ds' =>
      rw [List.cons_append, List.cons_append, List.cons.injEq] at h
      obtain ⟨rfl, hrest₁⟩ := ih (fun c hc => hds c (List.mem_cons_of_mem _ hc))
        (fun c hc => hds' c (List.mem_cons_of_mem _ hc)) h.2
      exact ⟨by rw [h.1], hrest₁⟩

/-- A number in decimal and what follows it are determined by the whole, if no digit follows. -/
theorem toString_append_inj {n n' : Nat} {rest rest' : List Char}
    (hrest : ∀ c ∈ rest.head?, c.isDigit = false) (hrest' : ∀ c ∈ rest'.head?, c.isDigit = false)
    (h : (toString n).toList ++ rest = (toString n').toList ++ rest') :
    n = n' ∧ rest = rest' := by
  obtain ⟨hdigits, hrest₁⟩ := digits_append_inj isDigit_of_mem_toString isDigit_of_mem_toString
    hrest hrest' h
  rw [String.toList_inj] at hdigits
  exact ⟨Nat.repr_injective hdigits, hrest₁⟩

/-- A number in decimal and what stands before it are determined by the whole, if a character that
is no digit stands between them. -/
theorem append_toString_inj {n n' : Nat} {front front' : List Char} {c : Char}
    (hc : c.isDigit = false) (h : front ++ c :: (toString n).toList = front' ++ c ::
      (toString n').toList) : front = front' ∧ n = n' := by
  -- Read from the back, the digits come first.
  have hreverse := congrArg List.reverse h
  rw [List.reverse_append, List.reverse_append, List.reverse_cons, List.reverse_cons,
    List.append_assoc, List.append_assoc] at hreverse
  have hdigit : ∀ {n : Nat}, ∀ d ∈ (toString n).toList.reverse, d.isDigit = true :=
    fun d hd => isDigit_of_mem_toString d (List.mem_reverse.1 hd)
  have hhead : ∀ rest : List Char, ∀ d ∈ ([c] ++ rest).head?, d.isDigit = false := by
    rintro rest d hd
    obtain rfl : c = d := Option.some.inj hd
    exact hc
  obtain ⟨hdigits, hfront⟩ := digits_append_inj hdigit hdigit (hhead _) (hhead _) hreverse
  rw [List.reverse_inj, String.toList_inj] at hdigits
  rw [List.append_cancel_left_eq, List.reverse_inj] at hfront
  exact ⟨hfront, Nat.repr_injective hdigits⟩

/-- The digits of a number write it. -/
theorem ofDigits_toString (n : Nat) : ofDigits 10 (toString n).toList = n := by
  rw [Nat.toString_eq_repr, Nat.repr, String.toList_ofList]
  induction n using Nat.strongRecOn with
  | ind n ih =>
    have hvalue : ∀ d < 10, digitValue (Nat.digitChar d) = d := by decide
    by_cases hsmall : n < 10
    · rw [Nat.toDigits_of_lt_base hsmall]
      exact (ofDigits_concat 10 [] _).trans (by rw [ofDigits_nil, hvalue n hsmall, Nat.mul_zero,
        Nat.zero_add])
    · -- The last digit is split off.
      rw [Nat.toDigits_of_base_le (by decide) (by omega), ofDigits_concat, ih _ (by omega),
        hvalue _ (Nat.mod_lt n (by decide))]
      exact Nat.div_add_mod n 10

end GridStyle.Text
