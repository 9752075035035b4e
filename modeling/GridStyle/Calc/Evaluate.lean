import GridStyle.Calc.Lexeme

/-!
# Evaluating Expressions

Expressions are evaluated while they are read, by one function per level of the grammar:

* `sum`: products joined by `+` and `-`, from the left;
* `product`: signed powers joined by `*`, `/` and `%`, from the left;
* `unary`: signs in front of a power;
* `power`: an atom, or an atom, `^` and a `unary`, so powers associate to the right;
* `atom`: a number, a name, a sum in parentheses, or a call.

So the first error from the left is reported, whether it is one of grammar or of arithmetic.
Each level takes at least one lexeme, and the recursion ends by the number of lexemes left.
-/

namespace GridStyle.Calc

variable {α : Type}

/-- What is left after a part that took at least one lexeme. -/
abbrev Rest (ls : List (Lexeme α)) := { rest : List (Lexeme α) // rest.length < ls.length }

/-- What is left after a lexeme and a further part is less than the whole. -/
theorem Rest.length_lt_of_eq_cons {ls after : List (Lexeme α)} {rest : Rest ls}
    {found : Lexeme α} (h : rest.1 = found :: after) (left : Rest after) :
    left.1.length < ls.length := by
  have hrest := rest.2
  have hleft := left.2
  rw [h, List.length_cons] at hrest
  omega

/-- The outcome of a part with a result of type `β`. -/
abbrev Outcome (β : Type) (ls : List (Lexeme α)) := Except (CalcError α) (β × Rest ls)

/-- Call a function by its name in any letter case. -/
def apply (A : Arithmetic α) (name : String) (args : List α) : Except (CalcError α) α :=
  match A.operation? name.toLower with
  | none => .error (.unknownFunction name)
  | some operation =>
    match operation.run? args with
    | some value => .ok value
    | none => .error (.arity name.toLower operation.arity args.length)

/-- Multiply, divide or take the remainder. Only a divisor can be refused. -/
def scale (A : Arithmetic α) (a : α) (op : Operator) (b : α) : Except (CalcError α) α :=
  match op with
  | .over => if A.isZero b then .error .divisionByZero else .ok (A.divide a b)
  | .modulo => if A.isZero b then .error .divisionByZero else .ok (A.remainder a b)
  | _ => .ok (A.multiply a b)

/-- The operators of a product. -/
def isScaling (op : Operator) : Bool :=
  op = .times || op = .over || op = .modulo

mutual

/-- Evaluate a sum. -/
def sum (A : Arithmetic α) (names : String → Option α) (ls : List (Lexeme α)) : Outcome α ls := do
  let (a, rest) ← product A names ls
  sumTail A names ls a rest
termination_by (ls.length, 5)

/-- Go on with a sum after the value `a`. -/
def sumTail (A : Arithmetic α) (names : String → Option α) (ls : List (Lexeme α)) (a : α)
    (rest : Rest ls) : Outcome α ls :=
  match h : rest.1 with
  | .operator .plus :: after => do
    let (b, left) ← product A names after
    sumTail A names ls (A.add a b) ⟨left.1, Rest.length_lt_of_eq_cons h left⟩
  | .operator .minus :: after => do
    let (b, left) ← product A names after
    sumTail A names ls (A.subtract a b) ⟨left.1, Rest.length_lt_of_eq_cons h left⟩
  | _ => .ok (a, rest)
termination_by (rest.1.length, 0)
decreasing_by all_goals grind

/-- Evaluate a product. -/
def product (A : Arithmetic α) (names : String → Option α) (ls : List (Lexeme α)) :
    Outcome α ls := do
  let (a, rest) ← unary A names ls
  productTail A names ls a rest
termination_by (ls.length, 4)

/-- Go on with a product after the value `a`. -/
def productTail (A : Arithmetic α) (names : String → Option α) (ls : List (Lexeme α)) (a : α)
    (rest : Rest ls) : Outcome α ls :=
  match h : rest.1 with
  | .operator op :: after =>
    if isScaling op then do
      let (b, left) ← unary A names after
      let c ← scale A a op b
      productTail A names ls c ⟨left.1, Rest.length_lt_of_eq_cons h left⟩
    else .ok (a, rest)
  | _ => .ok (a, rest)
termination_by (rest.1.length, 0)
decreasing_by all_goals grind

/-- Evaluate a signed power. -/
def unary (A : Arithmetic α) (names : String → Option α) (ls : List (Lexeme α)) :
    Outcome α ls :=
  match ls with
  | .operator .minus :: after => do
    let (a, left) ← unary A names after
    .ok (A.negate a, ⟨left.1, by grind⟩)
  | .operator .plus :: after => do
    let (a, left) ← unary A names after
    .ok (a, ⟨left.1, by grind⟩)
  | ls => power A names ls
termination_by (ls.length, 3)

/-- Evaluate a power. -/
def power (A : Arithmetic α) (names : String → Option α) (ls : List (Lexeme α)) :
    Outcome α ls := do
  let (a, rest) ← atom A names ls
  match h : rest.1 with
  -- The exponent may have signs of its own.
  | .operator .power :: after => do
    let (b, left) ← unary A names after
    .ok (A.power a b, ⟨left.1, by grind⟩)
  | _ => .ok (a, rest)
termination_by (ls.length, 2)
decreasing_by all_goals grind

/-- Evaluate an atom. -/
def atom (A : Arithmetic α) (names : String → Option α) (ls : List (Lexeme α)) : Outcome α ls :=
  match ls with
  | .number value :: after => .ok (value, ⟨after, by grind⟩)
  | .opening :: after => do
    let (a, left) ← sum A names after
    match h : left.1 with
    | .closing :: rest => .ok (a, ⟨rest, by grind⟩)
    | found => .error (.expectedClosing found.head?)
  -- A name in front of a parenthesis is a function, even if a number has the same name.
  | .name text :: .opening :: .closing :: after => do
    let a ← apply A text []
    .ok (a, ⟨after, by grind⟩)
  | .name text :: .opening :: after => do
    let (args, left) ← arguments A names [] after
    let a ← apply A text args
    .ok (a, ⟨left.1, by grind⟩)
  | .name text :: after =>
    match names text with
    | some value => .ok (value, ⟨after, by grind⟩)
    | none => .error (.unknownVariable text)
  | found :: _ => .error (.unexpected found)
  | [] => .error .unexpectedEnd
termination_by (ls.length, 1)

/-- Evaluate the arguments of a call up to its closing parenthesis; those before come in
reverse. -/
def arguments (A : Arithmetic α) (names : String → Option α) (done : List α)
    (ls : List (Lexeme α)) : Outcome (List α) ls := do
  let (a, left) ← sum A names ls
  match h : left.1 with
  | .comma :: after => do
    let (args, rest) ← arguments A names (a :: done) after
    .ok (args, ⟨rest.1, by grind⟩)
  | .closing :: after => .ok ((a :: done).reverse, ⟨after, by grind⟩)
  | found => .error (.expectedSeparator found.head?)
termination_by (ls.length, 6)
decreasing_by all_goals grind

end

/-- Evaluate a whole list of lexemes. -/
def evaluateLexemes (A : Arithmetic α) (names : String → Option α) (ls : List (Lexeme α)) :
    Except (CalcError α) α :=
  if ls.isEmpty then .error .empty
  else
    match sum A names ls with
    | .error e => .error e
    | .ok (value, rest) =>
      match rest.1 with
      | [] => .ok value
      | found :: _ => .error (.trailing found)

/-- Evaluate an expression. -/
def evaluate (A : Arithmetic α) (names : String → Option α) (source : String) :
    Except (CalcError α) α :=
  match lexemes A source with
  | .error e => .error e
  | .ok ls => evaluateLexemes A names ls

end GridStyle.Calc
