import GridStyle.Function.Progression
import GridStyle.Function.Registry

/-!
# Selector Predicates

The predicates that guard conditional blocks: the place of the cell, and chance.
-/

namespace GridStyle.Predicates

/-- Some argument is a progression that contains the index. Those behind it are not looked at. -/
def anyContains (args : List String) (index : Nat) : Except WordFault Bool :=
  (args.filterMap Progression.read).anyM fun p => p.contains (Int64.ofNat index)

/-- Some argument is a progression that contains a number of the cell. -/
def byNumber (number : Cell → Nat) : Predicate := fun call args =>
  Action.checked (anyContains args (number call.cell))

/-- The first two arguments that are numbers are the row and the column. -/
def isAt : Predicate := fun call args =>
  match args.filterMap fun arg => Decimal.readUnsigned (Nat.pow 2 32) (Text.trim arg.toList) with
  | x :: y :: _ => return call.cell.x == x && call.cell.y == y
  | _ => return false

/-- Holds with the probability given, or half of the time. -/
def byChance : Predicate := fun _ args => do
  let ratio ←
    match args with
    | [] => pure 0.5
    | arg :: _ =>
      match Decimal.readFloat (Text.trim arg.toList) with
      | some ratio => pure ratio
      | none => Action.fail "random" ("invalid ratio '" ++ arg ++ "'")
  let drawn ← Action.draw Random.unit
  return drawn < ratio

/-- The predicates by name. -/
def builtin : PredicateRegistry :=
  [("nth", byNumber (·.count)), ("even", fun call _ => return call.cell.count % 2 == 0),
    ("odd", fun call _ => return call.cell.count % 2 == 1), ("row", byNumber (·.x)),
    ("col", byNumber (·.y)), ("at", isAt), ("random", byChance)]

end GridStyle.Predicates
