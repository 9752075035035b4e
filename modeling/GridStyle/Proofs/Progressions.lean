import GridStyle.Function.Predicate
import GridStyle.Proofs.WrittenNumber

/-!
# Written Progressions

A progression is written as `an+b`, where the step or the offset may be left out, as a number, or as
one of the words `odd` and `even` (`Progression.Spells`). Reading it gives the words of its two
numbers (`Progression.read_eq`). As long as the distance to the offset is a word, `contains` holds
of the members of the progression, without a fault (`Progression.exists_contains_eq`).

So the predicates on the numbers of a cell hold exactly if some progression among their arguments
has the number (`Predicates.place_predicates`).
-/

namespace GridStyle

namespace Progression

open Decimal (Writes WritesSigned word? toInt_of_word?)

/-! ### Spellings -/

/-- The step is written in front of the `n`: a number, or a sign or nothing for one. -/
inductive WritesStep : Int → List Char → Prop
  | one : WritesStep 1 []
  | plus : WritesStep 1 ['+']
  | minus : WritesStep (-1) ['-']
  | number {a : Int} {cs : List Char} (h : WritesSigned a cs) : WritesStep a cs

/-- The offset is written behind the `n`: a number with its sign, or nothing for zero. -/
inductive WritesOffset : Int → List Char → Prop
  | none : WritesOffset 0 []
  | plus {n : Nat} {cs : List Char} (h : Writes n cs) : WritesOffset n ('+' :: cs)
  | minus {n : Nat} {cs : List Char} (h : Writes n cs) : WritesOffset (-n) ('-' :: cs)

/-- A text in small letters without blanks stands for the numbers `a * n + b`. -/
inductive SpellsPlain : Int → Int → List Char → Prop
  | odd : SpellsPlain 2 1 "odd".toList
  | even : SpellsPlain 2 0 "even".toList
  | number {b : Int} {cs : List Char} (h : WritesSigned b cs) : SpellsPlain 0 b cs
  | progression {a b : Int} {front back : List Char} (hstep : WritesStep a front)
    (hoffset : WritesOffset b back) : SpellsPlain a b (front ++ 'n' :: back)

/-- A text stands for the numbers `a * n + b`, wherever it has blanks and large letters. -/
def Spells (a b : Int) (text : String) : Prop :=
  SpellsPlain a b ((Text.dropBlanks text.toList).map Char.toLower)

/-- The progression of two numbers that are words. -/
def ofInts? (a b : Int) : Option Progression := do
  let step ← word? a
  let offset ← word? b
  return ⟨step, offset⟩

theorem WritesStep.of_mem {a : Int} {cs : List Char} (h : WritesStep a cs) {c : Char}
    (hc : c ∈ cs) : c.isDigit = true ∨ c = '+' ∨ c = '-' := by
  cases h with
  | one => exact absurd hc List.not_mem_nil
  | plus => exact .inr (.inl (List.mem_singleton.1 hc))
  | minus => exact .inr (.inr (List.mem_singleton.1 hc))
  | number h => exact h.of_mem hc

theorem WritesOffset.of_mem {b : Int} {cs : List Char} (h : WritesOffset b cs) {c : Char}
    (hc : c ∈ cs) : c.isDigit = true ∨ c = '+' ∨ c = '-' := by
  cases h with
  | none => exact absurd hc List.not_mem_nil
  | plus h =>
    rw [List.mem_cons] at hc
    exact hc.symm.imp (h.isDigit c) .inl
  | minus h =>
    rw [List.mem_cons] at hc
    exact hc.symm.imp (h.isDigit c) .inr

/-- No letter is among digits and signs. -/
theorem not_mem_of_forall {cs : List Char} (h : ∀ c ∈ cs, c.isDigit = true ∨ c = '+' ∨ c = '-') :
    ∀ letter ∈ ['o', 'e', 'n'], letter ∉ cs := by
  have hsign : ∀ letter ∈ ['o', 'e', 'n'],
      letter.isDigit = false ∧ letter ≠ '+' ∧ letter ≠ '-' := by simp [Char.isDigit]
  intro letter hletter hmem
  obtain ⟨hdigit, hplus, hminus⟩ := hsign letter hletter
  rcases h letter hmem with hc | hc | hc
  · exact Decimal.ne_of_isDigit hc hdigit rfl
  · exact hplus hc
  · exact hminus hc

/-! ### Reading -/

theorem readStep_eq {a : Int} {cs : List Char} (h : WritesStep a cs) :
    readStep cs = word? a := by
  cases h with
  | one => rfl
  | plus => rfl
  | minus => rfl
  | number h =>
    -- A digit is in the number, so it is none of the short forms.
    obtain ⟨c, hc, hdigit⟩ := h.exists_isDigit
    have hread : readStep cs = Decimal.readInt64 cs := by
      fun_cases readStep cs with
      | case1 => exact absurd hc List.not_mem_nil
      | case2 => exact absurd (List.mem_singleton.1 hc) (Decimal.ne_of_isDigit hdigit (by decide))
      | case3 => exact absurd (List.mem_singleton.1 hc) (Decimal.ne_of_isDigit hdigit (by decide))
      | case4 => rfl
    rw [hread, Decimal.readInt64_eq h]

theorem readOffset_eq {b : Int} {cs : List Char} (h : WritesOffset b cs) :
    readOffset cs = word? b := by
  cases h with
  | none => rfl
  | plus h => exact Decimal.readInt64_eq (.unsigned (.plain h))
  | minus h => exact Decimal.readInt64_eq (.minus h)

/-- A text without the first letters of the words is none of them. -/
theorem ne_words {cs : List Char} (ho : 'o' ∉ cs) (he : 'e' ∉ cs) :
    cs ≠ "odd".toList ∧ cs ≠ "even".toList :=
  ⟨fun h => ho (h ▸ List.mem_cons_self), fun h => he (h ▸ List.mem_cons_self)⟩

/-- A text without letters is a number. -/
theorem readPlain_of_not_mem {cs : List Char} (h : ∀ letter ∈ ['o', 'e', 'n'], letter ∉ cs) :
    readPlain cs = (Decimal.readInt64 cs).map (⟨0, ·⟩) := by
  have hwords := ne_words (h 'o' (by decide)) (h 'e' (by decide))
  have hdrop : cs.dropWhile (· != 'n') = [] :=
    List.dropWhile_eq_nil_iff.2 fun c hc => bne_iff_ne.2 fun heq => h 'n' (by decide) (heq ▸ hc)
  rw [readPlain, if_neg hwords.1, if_neg hwords.2, hdrop]

/-- Without other letters, what is in front of the `n` is the step and what is behind it is the
offset. -/
theorem readPlain_append {front back : List Char}
    (hfront : ∀ letter ∈ ['o', 'e', 'n'], letter ∉ front)
    (hback : ∀ letter ∈ ['o', 'e', 'n'], letter ∉ back) :
    readPlain (front ++ 'n' :: back) = do
      let step ← readStep front
      let offset ← readOffset back
      return ⟨step, offset⟩ := by
  have hkeep : ∀ c ∈ front, (c != 'n') = true := fun c hc =>
    bne_iff_ne.2 fun heq => hfront 'n' (by decide) (heq ▸ hc)
  have htake : (front ++ 'n' :: back).takeWhile (· != 'n') = front := by
    rw [List.takeWhile_append_of_pos hkeep, List.takeWhile_cons_of_neg (by decide),
      List.append_nil]
  have hdrop : (front ++ 'n' :: back).dropWhile (· != 'n') = 'n' :: back := by
    rw [List.dropWhile_append_of_pos hkeep, List.dropWhile_cons_of_neg (by decide)]
  have ho : 'o' ∉ front ++ 'n' :: back := by simp [hfront 'o' (by decide), hback 'o' (by decide)]
  have he : 'e' ∉ front ++ 'n' :: back := by simp [hfront 'e' (by decide), hback 'e' (by decide)]
  rw [readPlain, if_neg (ne_words ho he).1, if_neg (ne_words ho he).2, hdrop, htake]

/-- A text in small letters without blanks is read if its numbers are words. -/
theorem readPlain_eq {a b : Int} {cs : List Char} (h : SpellsPlain a b cs) :
    readPlain cs = ofInts? a b := by
  cases h with
  | odd => rfl
  | even => rfl
  | number h =>
    rw [readPlain_of_not_mem (not_mem_of_forall fun c => h.of_mem), Decimal.readInt64_eq h,
      Option.map_eq_bind]
    rfl
  | progression hstep hoffset =>
    rw [readPlain_append (not_mem_of_forall fun c => hstep.of_mem)
      (not_mem_of_forall fun c => hoffset.of_mem), readStep_eq hstep, readOffset_eq hoffset]
    rfl

/-- A progression that is written is read if its numbers are words. -/
theorem read_eq {a b : Int} {text : String} (h : Spells a b text) : read text = ofInts? a b :=
  readPlain_eq h

/-! ### Members -/

/-- A number is a multiple of another one, in its direction, exactly if the quotient that is rounded
towards zero leaves nothing and is not negative. -/
theorem exists_mul_eq_iff {a : Int} (ha : a ≠ 0) (d : Int) :
    (∃ k : Nat, a * k = d) ↔ d.tmod a = 0 ∧ 0 ≤ d.tdiv a := by
  constructor
  · rintro ⟨k, rfl⟩
    rw [Int.mul_tmod_right, Int.mul_tdiv_cancel_left _ ha]
    exact ⟨rfl, Int.natCast_nonneg k⟩
  · rintro ⟨hmod, hdiv⟩
    refine ⟨(d.tdiv a).toNat, ?_⟩
    rw [Int.toNat_of_nonneg hdiv, Int.mul_tdiv_cancel_of_tmod_eq_zero hmod]

/-- The distance from the offset to a number of a cell is too large for a word if the offset is at
the low end of the range, and it is never too small. -/
theorem difference_eq {n : Nat} (hn : n < 2 ^ 32) (b : Int64) :
    WordFault.difference (Int64.ofNat n) b =
      if b.toInt ≤ n - 2 ^ 63 then .error .overflow else .ok (Int64.ofNat n - b) := by
  have hindex : (Int64.ofNat n).toInt = n := Int64.toInt_ofNat_of_lt (by omega)
  have hlow := b.le_toInt
  have hhigh := b.toInt_lt
  rw [WordFault.difference, hindex]
  split
  · refine WordFault.exact_of_overflow ?_
    rw [Int64.toInt_maxValue]
    omega
  · refine WordFault.exact_eq ?_
    rw [Int64.toInt_sub, hindex, Int.bmod_eq_of_le (by omega) (by omega)]

/-- With a distance other than the least word there are a remainder and a quotient. -/
theorem contains_of_difference {p : Progression} {index distance : Int64} (hstep : p.step ≠ 0)
    (hdistance : WordFault.difference index p.offset = .ok distance)
    (hmin : distance ≠ Int64.minValue) :
    p.contains index = .ok (distance % p.step = 0 && 0 ≤ distance / p.step) := by
  have hin : ¬ (distance = Int64.minValue ∧ p.step = -1) := fun h => hmin h.1
  have hrest : WordFault.remainder distance p.step = .ok (distance % p.step) := by
    rw [WordFault.remainder_eq _ hstep, if_neg hin]
  have htimes : WordFault.quotient distance p.step = .ok (distance / p.step) := by
    rw [WordFault.quotient_eq _ hstep, if_neg hin]
  simp only [contains, if_neg hstep, hdistance, hrest, htimes, bind, pure, Except.bind, Except.pure]
  split <;> simp [*]

/-- If the distance from the offset to the number is a word, a progression contains its members and
nothing else. One that stands still has no need of a distance. -/
theorem exists_contains_eq {p : Progression} {n : Nat} (hn : n < 2 ^ 32)
    (hoffset : p.step ≠ 0 → n - 2 ^ 63 < p.offset.toInt) :
    ∃ holds, p.contains (Int64.ofNat n) = .ok holds ∧
      (holds = true ↔ ∃ k : Nat, p.step.toInt * k + p.offset.toInt = n) := by
  have hindex : (Int64.ofNat n).toInt = n := Int64.toInt_ofNat_of_lt (by omega)
  have hzero : (0 : Int64).toInt = 0 := rfl
  by_cases hstep : p.step = 0
  · -- A progression that stands still has one member.
    refine ⟨_, if_pos hstep, ?_⟩
    rw [decide_eq_true_iff, ← Int64.toInt_inj, hindex, hstep, hzero]
    simp [eq_comm]
  · have hlow := hoffset hstep
    have hhigh := p.offset.toInt_lt
    have hword : WordFault.difference (Int64.ofNat n) p.offset = .ok (Int64.ofNat n - p.offset) := by
      rw [difference_eq hn, if_neg (Int.not_le.2 hlow)]
    have hdistance : (Int64.ofNat n - p.offset).toInt = n - p.offset.toInt := by
      rw [Int64.toInt_sub, hindex, Int.bmod_eq_of_le (by omega) (by omega)]
    have hne : p.step.toInt ≠ 0 := fun heq => hstep (Int64.toInt_inj.1 heq)
    -- Only the quotient of the least word by minus one would leave the range.
    have hmin : Int64.ofNat n - p.offset ≠ Int64.minValue := by
      intro heq
      have hvalue := congrArg Int64.toInt heq
      rw [hdistance] at hvalue
      change _ = (-2 ^ 63 : Int) at hvalue
      omega
    refine ⟨_, contains_of_difference hstep hword hmin, ?_⟩
    rw [Bool.and_eq_true, decide_eq_true_iff, decide_eq_true_iff, ← Int64.toInt_inj,
      Int64.le_iff_toInt_le, Int64.toInt_mod, Int64.toInt_div_of_ne_left _ _ hmin, hdistance, hzero,
      ← exists_mul_eq_iff hne]
    exact exists_congr fun k => by omega

/-- A text that stands for `a * n + b` with two numbers that are far enough from the ends of the
range of a word for every distance to a number of a cell to be a word. -/
structure Spelled (a b : Int) (text : String) : Prop where
  /-- The text stands for the numbers. -/
  spells : Spells a b text
  /-- The step is a word. -/
  step_lt : a.natAbs < 2 ^ 62
  /-- The distance to the offset is a word. -/
  offset_lt : b.natAbs < 2 ^ 62

/-- A number between the ends of the range is a word. -/
theorem exists_word?_eq {i : Int} (h : i.natAbs < 2 ^ 62) : ∃ w, word? i = some w ∧ w.toInt = i := by
  have hword : word? i = some (Int64.ofInt i) := if_pos (by omega)
  exact ⟨_, hword, toInt_of_word? hword⟩

/-- A progression that is spelled is read, and contains its members. -/
theorem Spelled.exists_read_eq {a b : Int} {text : String} (h : Spelled a b text) :
    ∃ p, read text = some p ∧ ∀ n : Nat, n < 2 ^ 32 →
      ∃ holds, p.contains (Int64.ofNat n) = .ok holds ∧
        (holds = true ↔ ∃ k : Nat, a * k + b = n) := by
  obtain ⟨step, hstep, rfl⟩ := exists_word?_eq h.step_lt
  obtain ⟨offset, hoffset, rfl⟩ := exists_word?_eq h.offset_lt
  have hrange := h.offset_lt
  refine ⟨⟨step, offset⟩, ?_, fun n hn =>
    exists_contains_eq hn fun _ => show n - 2 ^ 63 < offset.toInt by omega⟩
  rw [read_eq h.spells, ofInts?, hstep, hoffset]
  rfl

end Progression

/-! ### Predicates on places -/

open Progression (Spelled)

/-- The arguments are progressions, or are not read at all. -/
def Predicates.PlaceArguments (args : List String) : Prop :=
  ∀ arg ∈ args, Progression.read arg = none ∨ ∃ a b, Spelled a b arg

theorem Predicates.anyContains_cons_of_none {arg : String} (h : Progression.read arg = none)
    (args : List String) (n : Nat) : anyContains (arg :: args) n = anyContains args n := by
  rw [anyContains, anyContains, List.filterMap_cons_none h]

theorem Predicates.anyContains_cons_of_some {arg : String} {p : Progression}
    (h : Progression.read arg = some p) {args : List String} {n : Nat} {holds rest : Bool}
    (hfirst : p.contains (Int64.ofNat n) = .ok holds) (hrest : anyContains args n = .ok rest) :
    anyContains (arg :: args) n = .ok (holds || rest) := by
  rw [anyContains] at hrest ⊢
  rw [List.filterMap_cons_some h, List.anyM, hfirst]
  cases holds with
  | true => rfl
  | false => exact hrest

/-- Whether some argument is a progression that contains the number is found out without a fault,
and it is so exactly if the number is a member of a progression among the arguments. -/
theorem Predicates.exists_anyContains_eq {args : List String} (hargs : PlaceArguments args) {n : Nat}
    (hn : n < 2 ^ 32) : ∃ holds, anyContains args n = .ok holds ∧
      (holds = true ↔ ∃ arg ∈ args, ∃ a b, Spelled a b arg ∧ ∃ k : Nat, a * k + b = n) := by
  induction args with
  | nil => exact ⟨false, rfl, by simp⟩
  | cons arg args ih =>
    obtain ⟨harg, hrest⟩ := List.forall_mem_cons.1 hargs
    obtain ⟨rest, heq, hmembers⟩ := ih hrest
    simp only [List.mem_cons, exists_eq_or_imp, ← hmembers]
    obtain hnone | ⟨a, b, hspelled⟩ := harg
    · refine ⟨rest, anyContains_cons_of_none hnone args n ▸ heq, (or_iff_right ?_).symm⟩
      rintro ⟨a, b, hspelled, -⟩
      obtain ⟨p, hread, -⟩ := hspelled.exists_read_eq
      exact absurd (hnone.symm.trans hread).symm (Option.some_ne_none p)
    · obtain ⟨p, hread, hcontains⟩ := hspelled.exists_read_eq
      obtain ⟨holds, hfirst, hmember⟩ := hcontains n hn
      refine ⟨_, anyContains_cons_of_some hread hfirst heq, ?_⟩
      rw [Bool.or_eq_true]
      refine or_congr_left ⟨fun h => ⟨a, b, hspelled, hmember.1 h⟩, ?_⟩
      -- A text stands for one progression, so it does not matter how it is taken.
      rintro ⟨a', b', hspelled', hmember'⟩
      obtain ⟨p', hread', hcontains'⟩ := hspelled'.exists_read_eq
      obtain ⟨holds', hfirst', hmembers'⟩ := hcontains' n hn
      obtain rfl := Option.some.inj (hread.symm.trans hread')
      rw [Except.ok.inj (hfirst.symm.trans hfirst')]
      exact hmembers'.2 hmember'

/-- The predicates on a number of the cell, by name. -/
def Predicates.placePredicates : List (String × (Cell → Nat)) :=
  [("nth", Cell.count), ("row", Cell.x), ("col", Cell.y)]

/-- Each of the predicates on the number, the row and the column of a cell, which all have 32 bits,
holds exactly if that is a member of one of the progressions among the arguments. It never fails and
leaves the context alone. -/
theorem Predicates.place_predicates {name : String} {number : Cell → Nat}
    (hname : (name, number) ∈ placePredicates) {args : List String} (hargs : PlaceArguments args)
    (call : Call) (hcell : number call.cell < 2 ^ 32) :
    ∃ predicate, builtin.find? name = some predicate ∧ ∃ holds : Bool,
      (∀ c, (predicate call args).perform c = (.ok holds, c)) ∧
      (holds = true ↔ ∃ arg ∈ args, ∃ a b, Spelled a b arg ∧ ∃ k : Nat,
        a * k + b = number call.cell) := by
  have hfind : builtin.find? name = some (byNumber number) := by
    simp only [placePredicates, List.mem_cons, List.not_mem_nil, or_false, Prod.mk.injEq] at hname
    rcases hname with ⟨rfl, rfl⟩ | ⟨rfl, rfl⟩ | ⟨rfl, rfl⟩ <;> rfl
  obtain ⟨holds, heq, hmembers⟩ := exists_anyContains_eq hargs hcell
  refine ⟨_, hfind, holds, fun c => ?_, hmembers⟩
  rw [byNumber, heq]
  rfl

/-- The fifth row is one of `2n-1`, also with blanks, a large letter and a text beside it that is no
progression. -/
theorem Predicates.place_predicates_row :
    Progression.read "xyz" = none ∧ Spelled 2 (-1) " 2N - 1" ∧
      ∃ predicate, builtin.find? "row" = some predicate ∧
        ∀ c, (predicate { cell := { x := 5 } } ["xyz", " 2N - 1"]).perform c = (.ok true, c) := by
  have hunread : Progression.read "xyz" = none := by decide +kernel
  have htext : (Text.dropBlanks " 2N - 1".toList).map Char.toLower = ['2'] ++ 'n' :: ['-', '1'] := by
    decide +kernel
  have hspelled : Spelled 2 (-1) " 2N - 1" := by
    refine ⟨?_, by decide, by decide⟩
    rw [Progression.Spells, htext]
    exact .progression
      (.number (.unsigned (.plain (Decimal.readDigits_eq_some_iff.1 (by decide)))))
      (.minus (Decimal.readDigits_eq_some_iff.1 (by decide)))
  have hargs : PlaceArguments ["xyz", " 2N - 1"] := by
    simp only [PlaceArguments, List.forall_mem_cons, List.not_mem_nil, false_imp_iff, implies_true,
      and_true]
    exact ⟨.inl hunread, .inr ⟨_, _, hspelled⟩⟩
  have hrow : ("row", Cell.x) ∈ placePredicates := by simp [placePredicates]
  obtain ⟨predicate, hfind, holds, hperform, hmembers⟩ :=
    place_predicates hrow hargs { cell := { x := 5 } } (by decide)
  have hholds : holds = true := hmembers.2 ⟨_, by simp, 2, -1, hspelled, 3, by decide⟩
  exact ⟨hunread, hspelled, predicate, hfind, fun c => hholds ▸ hperform c⟩

end GridStyle
