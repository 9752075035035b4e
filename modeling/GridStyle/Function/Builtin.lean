import GridStyle.Calc.Call
import GridStyle.Decimal.Quantity

/-!
# Value Functions

The functions that every registry starts with: the place of the cell, random and sequential
choice, random numbers, expressions, shapes and repetition.
-/

namespace GridStyle.Builtin

/-- The most repetitions of a lazy argument. -/
def repeatLimit : Nat := 65536

/-- A number of the call site, whatever the arguments are. -/
def fromCell (number : Cell → Nat) : EagerFunction := fun call _ =>
  return some (toString (number call.cell))

/-- An injected input. -/
def injected (i : Nat) : EagerFunction := fun call _ => return call.extra[i]?

/-- A random one of the arguments. -/
def pick : EagerFunction := fun _ args => do
  let index ← Action.drawIndex args.length
  return index.bind fun i => args[i]?

/-- The counter of the calls at one source position. -/
def cursor (position : Nat) : String := "pick-n:" ++ toString position

/-- The next one of the arguments. Every source position goes round on its own. -/
def pickNext : EagerFunction := fun call args => do
  -- A call without arguments does not move the counter on.
  if args.isEmpty then return none
  let turn ← Action.nextCounter (cursor call.position)
  return args[turn % args.length]?

/-- The bounds of a random number: from zero to one, from zero to the only number, or from the
first to the second. -/
def bounds : List Decimal.Quantity → Float × Float
  | [] => (0.0, 1.0)
  | [high] => (0.0, high.value)
  | low :: high :: _ => (low.value, high.value)

/-- A random number with the first unit that is given. All arguments have to be quantities. -/
def random : EagerFunction := fun _ args => do
  match args.mapM Decimal.readQuantity with
  | none => return none
  | some quantities =>
    let unit := ((quantities.map (·.unit)).find? (· != "")).getD ""
    let (low, high) := bounds quantities
    let value ← Action.draw (Random.range low high)
    return (Decimal.cssText value).map (· ++ unit)

/-- The value of an expression. -/
def expression : EagerFunction := fun call args => do
  match args with
  | [] => return none
  | source :: _ =>
    match Calc.evaluateCall call source with
    | .ok value => return Decimal.cssText value
    | .error e => Action.fail "calc" (e.text Calc.Arithmetic.double source)

/-- The clip path of a named shape. -/
def shape : EagerFunction := fun _ args =>
  match args with
  | [] => return none
  | name :: rest => return Shape.ofName? (Text.trimText name) rest

/-- How often to repeat: the whole part of a number that is not negative. -/
def repetitions (text : String) : Option Nat :=
  (Decimal.readQuantity text).bind fun q =>
    -- A number that no word holds becomes the greatest word, which is beyond the limit.
    if q.value < 0.0 then none else some q.value.toUInt64.toNat

/-- Evaluate the second argument for every index up to the number in the first, with index and
total as inputs, and join the texts. -/
def repeatWith (name separator : String) : LazyFunction := fun _ args => do
  match args with
  | times :: body :: _ =>
    -- The number is composed with the inputs of the call around this one.
    match repetitions (← times []) with
    | none => return none
    | some count =>
      if repeatLimit < count then
        Action.fail name (toString count ++ " repetitions exceed the limit of " ++
          toString repeatLimit)
      else
        let total := toString count
        let parts ← (GridSize.upTo count).mapM fun i => body [toString i, total]
        return some (String.intercalate separator parts)
  | _ => return none

/-- The functions on texts by name. -/
def eagerFunctions : List (String × EagerFunction) :=
  [("index", fromCell (·.count)), ("i", fromCell (·.count)), ("x", fromCell (·.x)),
    ("y", fromCell (·.y)), ("z", fromCell (·.z)), ("row", fromCell (·.x)),
    ("col", fromCell (·.y)), ("size", fromCell (·.grid.count)),
    ("size-row", fromCell (·.grid.x)), ("size-col", fromCell (·.grid.y)), ("n", injected 0),
    ("N", injected 1), ("pick", pick), ("p", pick), ("pick-n", pickNext), ("pn", pickNext),
    ("rand", random), ("r", random), ("calc", expression), ("shape", shape)]

/-- The functions on unevaluated arguments by name. -/
def lazyFunctions : List (String × LazyFunction) :=
  [("repeat", repeatWith "repeat" ""), ("multiple", repeatWith "multiple" ","),
    ("m", repeatWith "m" ",")]

/-- Add these functions to a registry. -/
def register (r : FunctionRegistry) : FunctionRegistry :=
  let r := eagerFunctions.foldl (fun r (name, f) => r.registerEager name f) r
  lazyFunctions.foldl (fun r (name, f) => r.registerLazy name f) r

end GridStyle.Builtin

namespace GridStyle

/-- The registry of all value functions of this library. -/
def FunctionRegistry.builtin : FunctionRegistry := Math.register (Builtin.register {})

end GridStyle
