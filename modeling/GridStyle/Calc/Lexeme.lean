import GridStyle.Calc.Arithmetic
import GridStyle.Text.Blank

/-!
# Lexemes of Expressions

The words of an expression: numbers, names, operators, parentheses and commas. Blanks separate
and mean nothing else. Also the errors of expressions, of which some show lexemes.
-/

namespace GridStyle.Calc

/-- The operators. -/
inductive Operator where
  | plus | minus | times | over | modulo | power
  deriving DecidableEq, Repr

/-- The character of an operator. -/
def Operator.symbol : Operator → Char
  | .plus => '+'
  | .minus => '-'
  | .times => '*'
  | .over => '/'
  | .modulo => '%'
  | .power => '^'

/-- The operator that a character writes. -/
def Operator.ofSymbol? : Char → Option Operator
  | '+' => some .plus
  | '-' => some .minus
  | '*' => some .times
  | '/' => some .over
  | '%' => some .modulo
  | '^' => some .power
  | _ => none

/-- A word of an expression over numbers of type `α`. -/
inductive Lexeme (α : Type) where
  /-- A number. -/
  | number (value : α)
  /-- The name of a variable or function. -/
  | name (text : String)
  /-- An operator. -/
  | operator (op : Operator)
  /-- `(` -/
  | opening
  /-- `)` -/
  | closing
  /-- `,` -/
  | comma

/-- What can go wrong in an expression. -/
inductive CalcError (α : Type) where
  /-- A name that stands for no number. -/
  | unknownVariable (name : String)
  /-- A name that stands for no function. -/
  | unknownFunction (name : String)
  /-- A division by zero. -/
  | divisionByZero
  /-- A function gets a wrong number of numbers. -/
  | arity (name : String) (expected got : Nat)
  /-- There is nothing to evaluate. -/
  | empty
  /-- A run of number characters that writes no number. -/
  | badNumber (text : String)
  /-- A character that no lexeme starts with. -/
  | unexpectedCharacter (c : Char)
  /-- The expression ends where a value should stand. -/
  | unexpectedEnd
  /-- A lexeme where a value should stand. -/
  | unexpected (found : Lexeme α)
  /-- A lexeme after the end of the expression. -/
  | trailing (found : Lexeme α)
  /-- Something else where a parenthesis should close. -/
  | expectedClosing (found : Option (Lexeme α))
  /-- Something else after an argument. -/
  | expectedSeparator (found : Option (Lexeme α))

/-- A lexeme as messages show it. -/
def Lexeme.shown {α : Type} (A : Arithmetic α) : Lexeme α → String
  | .number value => "Num(" ++ A.write value ++ ")"
  | .name text => "Name(\"" ++ text ++ "\")"
  | .operator op => "Op('" ++ op.symbol.toString ++ "')"
  | .opening => "Open"
  | .closing => "Close"
  | .comma => "Comma"

/-- A lexeme that may be missing, as messages show it. -/
def Lexeme.shownOption {α : Type} (A : Arithmetic α) : Option (Lexeme α) → String
  | some lexeme => "Some(" ++ lexeme.shown A ++ ")"
  | none => "None"

/-- The message of an error in the expression `source`. -/
def CalcError.text {α : Type} (A : Arithmetic α) (source : String) : CalcError α → String
  | .unknownVariable name => "unknown variable: " ++ name
  | .unknownFunction name => "unknown function: " ++ name
  | .divisionByZero => "division by zero"
  | .arity name expected got =>
    name ++ "() takes " ++ toString expected ++ " argument(s), got " ++ toString got
  | .empty => "syntax error: empty expression"
  | .badNumber text => "syntax error: bad number '" ++ text ++ "'"
  | .unexpectedCharacter c => "syntax error: unexpected character '" ++ c.toString ++ "'"
  | .unexpectedEnd => "syntax error: unexpected end of expression"
  | .unexpected found => "syntax error: unexpected " ++ found.shown A
  | .trailing found =>
    "syntax error: unexpected " ++ found.shown A ++ " in '" ++ Text.trimText source ++ "'"
  | .expectedClosing found =>
    "syntax error: expected Close, found " ++ Lexeme.shownOption A found
  | .expectedSeparator found =>
    "syntax error: expected ',' or ')', found " ++ Lexeme.shownOption A found

/-- A lexeme that is being read: its characters, last one first. -/
inductive Pending where
  /-- Between lexemes. -/
  | nothing
  /-- In a number. -/
  | number (cs : List Char)
  /-- In a name. -/
  | name (cs : List Char)

namespace Pending

/-- A number goes on with digits, points, `e`, and a sign right after `e`; a name goes on with
letters, digits and underscores. -/
def continues : Pending → Char → Bool
  | nothing, _ => false
  | number cs, c =>
    c.isDigit || c == '.' || c == 'e' || c == 'E' ||
      ((c == '-' || c == '+') && (cs.head? == some 'e' || cs.head? == some 'E'))
  | name _, c => c.isAlphanum || c == '_'

/-- The pending lexeme with one more character. -/
def push : Pending → Char → Pending
  | nothing, _ => nothing
  | number cs, c => number (c :: cs)
  | name cs, c => name (c :: cs)

/-- Add the finished lexeme in front of those read before. -/
def finish {α : Type} (A : Arithmetic α) (done : List (Lexeme α)) :
    Pending → Except (CalcError α) (List (Lexeme α))
  | nothing => .ok done
  | number cs =>
    match A.read cs.reverse with
    | some value => .ok (.number value :: done)
    | none => .error (.badNumber (String.ofList cs.reverse))
  | name cs => .ok (.name (String.ofList cs.reverse) :: done)

end Pending

/-- Read lexemes from the left; those before come in reverse. -/
def lexFrom {α : Type} (A : Arithmetic α) (done : List (Lexeme α)) (pending : Pending) :
    List Char → Except (CalcError α) (List (Lexeme α))
  | [] => (pending.finish A done).map List.reverse
  | c :: cs =>
    if pending.continues c then lexFrom A done (pending.push c) cs
    else
      -- The pending lexeme ends here, and `c` starts the next one.
      match pending.finish A done with
      | .error e => .error e
      | .ok done =>
        if Text.isBlank c then lexFrom A done .nothing cs
        else if c.isDigit || c == '.' then lexFrom A done (.number [c]) cs
        else if c.isAlpha || c == '_' then lexFrom A done (.name [c]) cs
        else if c == '(' then lexFrom A (.opening :: done) .nothing cs
        else if c == ')' then lexFrom A (.closing :: done) .nothing cs
        else if c == ',' then lexFrom A (.comma :: done) .nothing cs
        else
          match Operator.ofSymbol? c with
          | some op => lexFrom A (.operator op :: done) .nothing cs
          | none => .error (.unexpectedCharacter c)

/-- The lexemes of an expression. -/
def lexemes {α : Type} (A : Arithmetic α) (source : String) :
    Except (CalcError α) (List (Lexeme α)) :=
  lexFrom A [] .nothing source.toList

end GridStyle.Calc
