import GridStyle.Calc.Evaluate

/-!
# The Grammar of Expressions

Expressions as trees, the value of a tree, and the lists of lexemes that a tree is derived from:

* `sum := product (('+' | '-') product)*`
* `product := unary (('*' | '/' | '%') unary)*`
* `unary := ('-' | '+') unary | power`
* `power := atom ['^' unary]`
* `atom := number | name | '(' sum ')' | name '(' [sum (',' sum)*] ')'`

A repetition is derived along with the tree that it goes on from. So the operators of a chain
associate to the left, whereas `^` associates to the right, since what follows it is a `unary`.
-/

namespace GridStyle.Calc

variable {α : Type}

/-! ### Trees -/

/-- An expression. -/
inductive Expr (α : Type) where
  /-- A number. -/
  | number (value : α)
  /-- A variable. -/
  | var (name : String)
  /-- A sign in front of an expression. -/
  | signed (negative : Bool) (e : Expr α)
  /-- An operator between two expressions. -/
  | binary (op : Operator) (a b : Expr α)
  /-- A call of a function. -/
  | call (name : String) (args : List (Expr α))

/-- What an operator makes of two numbers. -/
def Operator.run (A : Arithmetic α) (op : Operator) (a b : α) : Except (CalcError α) α :=
  match op with
  | .plus => .ok (A.add a b)
  | .minus => .ok (A.subtract a b)
  | .power => .ok (A.power a b)
  | op => scale A a op b

theorem Operator.run_eq_scale {op : Operator} (h : isScaling op = true) (A : Arithmetic α)
    (a b : α) : op.run A a b = scale A a op b := by
  revert h
  cases op <;> first | exact fun _ => rfl | exact fun h => absurd h Bool.false_ne_true

/-- The number that a variable stands for. -/
def lookup (names : String → Option α) (name : String) : Except (CalcError α) α :=
  match names name with
  | some value => .ok value
  | none => .error (.unknownVariable name)

/-- The operator that writes a sign. -/
def signOf (negative : Bool) : Operator := if negative then .minus else .plus

section Value

variable (A : Arithmetic α) (names : String → Option α)

mutual

/-- The value of an expression, or the first error from the left. A function is looked up after its
arguments are evaluated. -/
def Expr.value : Expr α → Except (CalcError α) α
  | .number value => .ok value
  | .var name => lookup names name
  | .signed negative e => do
    let a ← e.value
    return if negative then A.negate a else a
  | .binary op a b => do
    let x ← a.value
    let y ← b.value
    op.run A x y
  | .call name args => do
    let xs ← Expr.values args
    apply A name xs

/-- The values of expressions, from the left. -/
def Expr.values : List (Expr α) → Except (CalcError α) (List α)
  | [] => .ok []
  | e :: es => do
    let x ← e.value
    let xs ← Expr.values es
    return x :: xs

end

end Value

/-! ### Derivations -/

/-- The levels of the grammar. -/
inductive Level where
  | sum | product | unary | power | atom
  deriving DecidableEq, Repr

/-- How tightly a level binds. -/
def Level.rank : Level → Nat
  | sum => 0
  | product => 1
  | unary => 2
  | power => 3
  | atom => 4

/-- The level of the expressions that an operator makes. -/
def Operator.level : Operator → Level
  | .plus | .minus => .sum
  | .times | .over | .modulo => .product
  | .power => .power

/-- The operators of products are those that scale. -/
theorem isScaling_iff {op : Operator} : isScaling op = true ↔ op.level = .product := by
  cases op <;> decide

/-- Expressions of the first level are chains of those of the second one. -/
def Level.Chains (level part : Level) : Prop :=
  (level = .sum ∧ part = .product) ∨ (level = .product ∧ part = .unary)

theorem Level.Chains.rank_lt {level part : Level} (h : level.Chains part) :
    level.rank < part.rank := by
  obtain ⟨rfl, rfl⟩ | ⟨rfl, rfl⟩ := h <;> decide

/-- What a part of a list of lexemes can be. -/
inductive Phrase (α : Type) where
  /-- An expression of a level. -/
  | term (level : Level) (e : Expr α)
  /-- The repetition after the first part `a` of a chain, with which the chain is `e`. -/
  | tail (level : Level) (a e : Expr α)
  /-- The arguments of a call. -/
  | arguments (es : List (Expr α))

/-- The phrase is derived from the lexemes. -/
inductive Derives : Phrase α → List (Lexeme α) → Prop where
  -- sum := product (('+' | '-') product)*
  | sum {a e ls ls'} (first : Derives (.term .product a) ls)
      (more : Derives (.tail .sum a e) ls') : Derives (.term .sum e) (ls ++ ls')
  | sum_end {e} : Derives (.tail .sum e e) []
  | sum_more {op a b e ls ls'} (hop : op.level = .sum) (next : Derives (.term .product b) ls)
      (more : Derives (.tail .sum (.binary op a b) e) ls') :
      Derives (.tail .sum a e) (.operator op :: (ls ++ ls'))
  -- product := unary (('*' | '/' | '%') unary)*
  | product {a e ls ls'} (first : Derives (.term .unary a) ls)
      (more : Derives (.tail .product a e) ls') : Derives (.term .product e) (ls ++ ls')
  | product_end {e} : Derives (.tail .product e e) []
  | product_more {op a b e ls ls'} (hop : op.level = .product) (next : Derives (.term .unary b) ls)
      (more : Derives (.tail .product (.binary op a b) e) ls') :
      Derives (.tail .product a e) (.operator op :: (ls ++ ls'))
  -- unary := ('-' | '+') unary | power
  | signed {negative e ls} (inner : Derives (.term .unary e) ls) :
      Derives (.term .unary (.signed negative e)) (.operator (signOf negative) :: ls)
  | unsigned {e ls} (inner : Derives (.term .power e) ls) : Derives (.term .unary e) ls
  -- power := atom ['^' unary]
  | raised {a b ls ls'} (base : Derives (.term .atom a) ls)
      (exponent : Derives (.term .unary b) ls') :
      Derives (.term .power (.binary .power a b)) (ls ++ .operator .power :: ls')
  | base {e ls} (inner : Derives (.term .atom e) ls) : Derives (.term .power e) ls
  -- atom := number | name | '(' sum ')' | name '(' [sum (',' sum)*] ')'
  | number {value} : Derives (.term .atom (.number value)) [.number value]
  | var {name} : Derives (.term .atom (.var name)) [.name name]
  | group {e ls} (inner : Derives (.term .sum e) ls) :
      Derives (.term .atom e) (.opening :: (ls ++ [.closing]))
  | call_nil {name} : Derives (.term .atom (.call name [])) [.name name, .opening, .closing]
  | call {name args ls} (inner : Derives (.arguments args) ls) :
      Derives (.term .atom (.call name args)) (.name name :: .opening :: (ls ++ [.closing]))
  | last {e ls} (inner : Derives (.term .sum e) ls) : Derives (.arguments [e]) ls
  | comma {e es ls ls'} (first : Derives (.term .sum e) ls) (more : Derives (.arguments es) ls') :
      Derives (.arguments (e :: es)) (ls ++ .comma :: ls')

namespace Derives

variable {level part : Level} {op : Operator} {a b e : Expr α} {ls ls' : List (Lexeme α)}

/-- A chain is made of its first part and the repetition after it. -/
theorem chain (h : level.Chains part) (first : Derives (.term part a) ls)
    (more : Derives (.tail level a e) ls') : Derives (.term level e) (ls ++ ls') := by
  obtain ⟨rfl, rfl⟩ | ⟨rfl, rfl⟩ := h
  · exact .sum first more
  · exact .product first more

theorem chain_end (h : level.Chains part) : Derives (.tail level e e) [] := by
  obtain ⟨rfl, rfl⟩ | ⟨rfl, rfl⟩ := h
  · exact .sum_end
  · exact .product_end

/-- A chain goes on with an operator of its level and a further part. -/
theorem chain_more (h : level.Chains part) (hop : op.level = level)
    (next : Derives (.term part b) ls) (more : Derives (.tail level (.binary op a b) e) ls') :
    Derives (.tail level a e) (.operator op :: (ls ++ ls')) := by
  obtain ⟨rfl, rfl⟩ | ⟨rfl, rfl⟩ := h
  · exact .sum_more hop next more
  · exact .product_more hop next more

end Derives

/-! ### Ends of phrases -/

/-- An expression of this level ends before these lexemes: they do not start with an operator that
binds as tightly, nor with a parenthesis, which would turn a name into a function. -/
def Level.Stops (level : Level) : List (Lexeme α) → Prop
  | .operator op :: _ => op.level.rank < level.rank
  | .opening :: _ => False
  | _ => True

theorem Level.Stops.mono {level level' : Level} {rest : List (Lexeme α)} (h : level.Stops rest)
    (hlevel : level.rank ≤ level'.rank) : level'.Stops rest := by
  unfold Stops at h ⊢
  split
  · exact Nat.lt_of_lt_of_le h hlevel
  · exact h
  · trivial

/-- What ends a power ends its exponent: no operator is in between. -/
theorem Level.Stops.exponent {rest : List (Lexeme α)} (h : Level.power.Stops rest) :
    Level.unary.Stops rest := by
  have hop : ∀ op : Operator, op.level.rank < power.rank → op.level.rank < unary.rank := by
    intro op
    cases op <;> decide
  unfold Stops at h ⊢
  split
  · exact hop _ h
  · exact h
  · trivial

namespace Derives

/-- What the first lexeme of a phrase can be. Signs come before no atom, and operators before
repetitions only. -/
def Starts : Phrase α → List (Lexeme α) → Prop
  | .term level _, ls => ∃ first rest, ls = first :: rest ∧ first ≠ .closing ∧
      (Level.power.rank ≤ level.rank → ∀ op, first ≠ .operator op)
  | .tail level _ _, ls => ls = [] ∨ ∃ op rest, ls = .operator op :: rest ∧ op.level = level
  | .arguments _, ls => ∃ first rest, ls = first :: rest ∧ first ≠ .closing

theorem starts {phrase : Phrase α} {ls : List (Lexeme α)} (h : Derives phrase ls) :
    Starts phrase ls := by
  induction h with
  | sum _ _ ih _ | product _ _ ih _ =>
    obtain ⟨first, rest, rfl, hfirst, -⟩ := ih
    exact ⟨first, rest ++ _, rfl, hfirst, fun hlevel => absurd hlevel (by decide)⟩
  -- A repetition may be over, and otherwise starts with an operator of its level.
  | sum_end | product_end => exact .inl rfl
  | sum_more hop | product_more hop => exact .inr ⟨_, _, rfl, hop⟩
  | signed =>
    exact ⟨_, _, rfl, nofun, fun hlevel => absurd hlevel (by decide)⟩
  | unsigned _ ih =>
    obtain ⟨first, rest, rfl, hfirst, -⟩ := ih
    exact ⟨first, rest, rfl, hfirst, fun hlevel => absurd hlevel (by decide)⟩
  | raised _ _ ih _ =>
    obtain ⟨first, rest, rfl, hfirst, hoperator⟩ := ih
    exact ⟨first, rest ++ _, rfl, hfirst, fun _ => hoperator (by decide)⟩
  | base _ ih =>
    obtain ⟨first, rest, rfl, hfirst, hoperator⟩ := ih
    exact ⟨first, rest, rfl, hfirst, fun _ => hoperator (by decide)⟩
  | number | var | group | call_nil | call =>
    exact ⟨_, _, rfl, nofun, fun _ _ => nofun⟩
  | last _ ih =>
    obtain ⟨first, rest, rfl, hfirst, -⟩ := ih
    exact ⟨first, rest, rfl, hfirst⟩
  | comma _ _ ih _ =>
    obtain ⟨first, rest, rfl, hfirst, -⟩ := ih
    exact ⟨first, rest ++ _, rfl, hfirst⟩

/-- The parts of a chain end where the chain goes on or ends. -/
theorem stops_append {level level' : Level} {a e : Expr α} {ls rest : List (Lexeme α)}
    (h : Derives (.tail level a e) ls) (hrest : level.Stops rest)
    (hlevel : level.rank < level'.rank) : level'.Stops (ls ++ rest) := by
  obtain rfl | ⟨op, ls, rfl, rfl⟩ := h.starts
  · exact hrest.mono (Nat.le_of_lt hlevel)
  · exact hlevel

variable {A : Arithmetic α} {names : String → Option α}

/-- The value of a chain depends on that of its first part. -/
theorem bind_value {level : Level} {a e : Expr α} {ls : List (Lexeme α)}
    (h : Derives (.tail level a e) ls) :
    (a.value A names >>= fun _ => e.value A names) = e.value A names := by
  cases ha : a.value A names with
  | ok x => rfl
  | error x =>
    generalize hphrase : Phrase.tail level a e = phrase at h
    -- An error of the first part is one of the part that the chain goes on from.
    induction h generalizing a with
    | sum_end | product_end =>
      obtain ⟨-, rfl, rfl⟩ := Phrase.tail.inj hphrase
      exact ha.symm
    | sum_more _ _ _ _ ih | product_more _ _ _ _ ih =>
      obtain ⟨rfl, rfl, rfl⟩ := Phrase.tail.inj hphrase
      exact ih (by rw [Expr.value, ha]; rfl) rfl
    | _ => cases hphrase

end Derives

end GridStyle.Calc
