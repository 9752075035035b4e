import GridStyle.Calc.Lexeme
import GridStyle.Proofs.Trimming

/-!
# Reading Spelled Lexemes

A text can spell a lexeme (`Spells`). Texts with spaces in between are read as the lexemes that they
spell (`lexemes_intercalate`): a space ends every word.
-/

namespace GridStyle.Calc

variable {α : Type} {A : Arithmetic α}

/-! ### Spellings -/

/-- A number goes on with the character `c` after `before`. -/
def NumeralStep (before c : Char) : Prop :=
  c.isDigit = true ∨ c = '.' ∨ c = 'e' ∨ c = 'E' ∨
    ((c = '-' ∨ c = '+') ∧ (before = 'e' ∨ before = 'E'))

/-- The characters are one word that starts like a number and goes on like one. -/
def IsNumeral : List Char → Prop
  | [] => False
  | c :: cs => (c.isDigit = true ∨ c = '.') ∧ (c :: cs).IsChain NumeralStep

/-- The characters are one word that starts like a name and goes on like one. -/
def IsName : List Char → Prop
  | [] => False
  | c :: cs => (c.isAlpha = true ∨ c = '_') ∧ ∀ d ∈ cs, d.isAlphanum = true ∨ d = '_'

/-- The text spells the lexeme. A number can be spelled in several ways. -/
def Spells (A : Arithmetic α) : Lexeme α → String → Prop
  | .number value, text => IsNumeral text.toList ∧ A.read text.toList = some value
  | .name name, text => IsName text.toList ∧ text = name
  | .operator op, text => text = op.symbol.toString
  | .opening, text => text = "("
  | .closing, text => text = ")"
  | .comma, text => text = ","

/-! ### Words -/

theorem continues_of_numeralStep {before c : Char} (h : NumeralStep before c) (cs : List Char) :
    (Pending.number (before :: cs)).continues c = true := by
  rw [Pending.continues, List.head?_cons]
  obtain h | rfl | rfl | rfl | ⟨rfl | rfl, rfl | rfl⟩ := h <;> simp_all

/-- A number starts with a digit or a point. -/
theorem lexFrom_number_start (done : List (Lexeme α)) {c : Char}
    (h : c.isDigit = true ∨ c = '.') (cs : List Char) :
    lexFrom A done .nothing (c :: cs) = lexFrom A done (.number [c]) cs := by
  have hblank : Text.isBlank c = false := by
    obtain h | rfl := h
    · have hdigit : 48 ≤ c.toNat ∧ c.toNat ≤ 57 := Char.isDigit_iff_toNat.1 h
      exact Text.isBlank_eq_false (by omega) (by omega)
    · decide
  have hstart : (c.isDigit || c == '.') = true := by simpa using h
  rw [lexFrom, Pending.continues, if_neg Bool.false_ne_true, Pending.finish]
  simp only [hblank, hstart, if_true, Bool.false_eq_true, if_false]

/-- The letters and the underscore come after the digits. -/
theorem toNat_of_name_start {c : Char} (h : c.isAlpha = true ∨ c = '_') :
    57 < c.toNat ∧ c.toNat < 128 := by
  obtain h | rfl := h
  · change (decide (65 ≤ c.val ∧ c.val ≤ 90) ||
      (decide (97 ≤ c.val) && decide (c.val ≤ 122))) = true at h
    simp only [Bool.or_eq_true, Bool.and_eq_true, decide_eq_true_eq, UInt32.le_iff_toNat_le] at h
    change (65 ≤ c.toNat ∧ c.toNat ≤ 90) ∨ (97 ≤ c.toNat ∧ c.toNat ≤ 122) at h
    omega
  · decide

/-- A name starts with a letter or an underscore. -/
theorem lexFrom_name_start (done : List (Lexeme α)) {c : Char}
    (h : c.isAlpha = true ∨ c = '_') (cs : List Char) :
    lexFrom A done .nothing (c :: cs) = lexFrom A done (.name [c]) cs := by
  have hrange : 57 < c.toNat ∧ c.toNat < 128 := toNat_of_name_start h
  have hblank : Text.isBlank c = false := Text.isBlank_eq_false (by omega) hrange.2
  -- The letters and the underscore come after the digits and the point.
  have hnumber : (c.isDigit || c == '.') = false := by
    rw [Bool.or_eq_false_iff, Bool.eq_false_iff, beq_eq_false_iff_ne]
    refine ⟨fun hdigit => ?_, ?_⟩
    · have hle : c.toNat ≤ 57 := (Char.isDigit_iff_toNat.1 hdigit).2
      omega
    · rintro rfl
      exact absurd hrange.1 (by decide)
  have hstart : (c.isAlpha || c == '_') = true := by simpa using h
  rw [lexFrom, Pending.continues, if_neg Bool.false_ne_true, Pending.finish]
  simp only [hblank, hnumber, hstart, if_true, Bool.false_eq_true, if_false]

/-- The rest of a number is added to its front. -/
theorem lexFrom_number {done : List (Lexeme α)} {c : Char} {before cs : List Char}
    (h : (c :: cs).IsChain NumeralStep) (rest : List Char) :
    lexFrom A done (.number (c :: before)) (cs ++ rest) =
      lexFrom A done (.number (cs.reverse ++ c :: before)) rest := by
  induction cs generalizing c before with
  | nil => rfl
  | cons d cs ih =>
    rw [List.isChain_cons_cons] at h
    rw [List.cons_append, lexFrom, if_pos (continues_of_numeralStep h.1 before), Pending.push,
      ih h.2, List.reverse_cons, List.append_assoc]
    rfl

/-- The rest of a name is added to its front. -/
theorem lexFrom_name {done : List (Lexeme α)} {before cs : List Char}
    (h : ∀ d ∈ cs, d.isAlphanum = true ∨ d = '_') (rest : List Char) :
    lexFrom A done (.name before) (cs ++ rest) =
      lexFrom A done (.name (cs.reverse ++ before)) rest := by
  induction cs generalizing before with
  | nil => rfl
  | cons d cs ih =>
    rw [List.forall_mem_cons] at h
    have hcontinues : (Pending.name before).continues d = true := by
      rw [Pending.continues]
      simpa using h.1
    rw [List.cons_append, lexFrom, if_pos hcontinues, Pending.push, ih h.2, List.reverse_cons,
      List.append_assoc]
    rfl

/-- The end of the text, or a space, follows. -/
def Ends (rest : List Char) : Prop := rest = [] ∨ ∃ more, rest = ' ' :: more

/-- A word ends before a space, and at the end of the text. -/
theorem lexFrom_finish {pending : Pending} {done done' : List (Lexeme α)} {rest : List Char}
    (h : pending.finish A done = .ok done') (hrest : Ends rest) :
    lexFrom A done pending rest = lexFrom A done' .nothing rest := by
  obtain rfl | ⟨more, rfl⟩ := hrest
  · rw [lexFrom, lexFrom, h]
    rfl
  · have hspace : pending.continues ' ' = false := by
      cases pending with
      | nothing => rfl
      | number cs => simp [Pending.continues]
      | name cs => rfl
    rw [lexFrom, lexFrom, hspace, h]
    rfl

/-- A space is skipped. -/
theorem lexFrom_space (done : List (Lexeme α)) (rest : List Char) :
    lexFrom A done .nothing (' ' :: rest) = lexFrom A done .nothing rest := by
  rw [lexFrom]
  rfl

/-- A numeral is read up to the next space. -/
theorem lexFrom_numeral {cs : List Char} {value : α} (h : IsNumeral cs)
    (hread : A.read cs = some value) (done : List (Lexeme α)) {rest : List Char}
    (hrest : Ends rest) :
    lexFrom A done .nothing (cs ++ rest) = lexFrom A (.number value :: done) .nothing rest := by
  cases cs with
  | nil => exact absurd h id
  | cons c cs =>
    -- What was read of the numeral is kept in reverse.
    have hreverse : (cs.reverse ++ [c]).reverse = c :: cs := by
      rw [List.reverse_append, List.reverse_reverse]
      rfl
    have hfinish : (Pending.number (cs.reverse ++ [c])).finish A done =
        .ok (.number value :: done) := by
      rw [Pending.finish, hreverse, hread]
    rw [List.cons_append, lexFrom_number_start done h.1, lexFrom_number h.2]
    exact lexFrom_finish hfinish hrest

/-- A word that is a name is read up to the next space. -/
theorem lexFrom_word {cs : List Char} (h : IsName cs) (done : List (Lexeme α))
    {rest : List Char} (hrest : Ends rest) :
    lexFrom A done .nothing (cs ++ rest) =
      lexFrom A (.name (String.ofList cs) :: done) .nothing rest := by
  cases cs with
  | nil => exact absurd h id
  | cons c cs =>
    have hfinish : (Pending.name (cs.reverse ++ [c])).finish A done =
        .ok (.name (String.ofList (c :: cs)) :: done) := by
      rw [Pending.finish, List.reverse_append, List.reverse_reverse]
      rfl
    rw [List.cons_append, lexFrom_name_start done h.1, lexFrom_name h.2]
    exact lexFrom_finish hfinish hrest

/-- A spelled lexeme is read up to the next space. -/
theorem lexFrom_spelled {l : Lexeme α} {text : String} (h : Spells A l text)
    (done : List (Lexeme α)) {rest : List Char} (hrest : Ends rest) :
    lexFrom A done .nothing (text.toList ++ rest) = lexFrom A (l :: done) .nothing rest := by
  cases l with
  | number value => exact lexFrom_numeral h.1 h.2 done hrest
  | name name =>
    obtain ⟨hname, rfl⟩ := h
    have hword := lexFrom_word (A := A) hname done hrest
    rwa [String.ofList_toList] at hword
  | operator op =>
    obtain rfl : text = op.symbol.toString := h
    cases op <;> rfl
  | opening =>
    obtain rfl : text = "(" := h
    rfl
  | closing =>
    obtain rfl : text = ")" := h
    rfl
  | comma =>
    obtain rfl : text = "," := h
    rfl

/-- The lexemes that are spelled by texts with spaces in between. -/
theorem lexFrom_intercalate {ls : List (Lexeme α)} {texts : List String}
    (h : List.Forall₂ (Spells A) ls texts) (done : List (Lexeme α)) :
    lexFrom A done .nothing (List.intercalate [' '] (texts.map String.toList)) =
      .ok (done.reverse ++ ls) := by
  induction h generalizing done with
  | nil =>
    rw [List.append_nil]
    rfl
  | @cons l text ls texts hspells hrest ih =>
    cases texts with
    | nil =>
      cases hrest
      have hword := lexFrom_spelled hspells done (.inl rfl)
      rw [List.append_nil] at hword
      rw [List.map_singleton, List.intercalate_singleton, hword]
      exact congrArg Except.ok List.reverse_cons
    | cons text' texts =>
      have hmore := ih (l :: done)
      rw [List.map_cons] at hmore
      rw [List.map_cons, List.map_cons, List.intercalate_cons_cons, List.append_assoc,
        List.singleton_append, lexFrom_spelled hspells done (.inr ⟨_, rfl⟩), lexFrom_space, hmore,
        List.reverse_cons, List.append_assoc]
      rfl

end GridStyle.Calc
