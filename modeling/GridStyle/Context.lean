import GridStyle.CheckedWord
import GridStyle.Random
import Std.Data.HashMap

/-!
# Shared Context

What the cells of one pass share: named values, named counters and the random generator. Calls
change it, and the change is kept also when a later step fails. `Action` is a computation on the
context that may fail, in a function or by a fault of its arithmetic.
-/

namespace GridStyle

/-- The state that the functions of one pass share. -/
structure Context where
  /-- Values by name. -/
  values : Std.HashMap String String := {}
  /-- Counters by name; one that is absent stands at zero. -/
  counters : Std.HashMap String Nat := {}
  /-- The random generator. -/
  random : Random

/-- A function of the registry failed, which ends the whole compilation. -/
structure FunctionError where
  /-- The name of the function. -/
  name : String
  /-- What went wrong. -/
  message : String
  deriving DecidableEq, Repr

/-- The text of a failure. -/
def FunctionError.text (e : FunctionError) : String :=
  "function '" ++ e.name ++ "' failed: " ++ e.message

/-- Why a computation has no result. -/
inductive Failure where
  /-- A function failed, which ends the compilation. -/
  | function (error : FunctionError)
  /-- A number left the range of words, which ends the program. -/
  | fault (fault : WordFault)
  deriving DecidableEq, Repr

/-- A computation on the shared context that may fail. The context after a failure is kept. -/
abbrev Action (α : Type) := ExceptT Failure (StateM Context) α

namespace Context

/-- A fresh context with a seed. -/
def ofSeed (seed : UInt64) : Context := { random := Random.ofSeed seed }

/-- The value of a name. -/
def value? (c : Context) (name : String) : Option String := c.values[name]?

/-- Give a name a value. -/
def setValue (c : Context) (name value : String) : Context :=
  { c with values := c.values.insert name value }

/-- The value of a counter. -/
def counter (c : Context) (name : String) : Nat := c.counters.getD name 0

/-- Move a counter on by one. -/
def advance (c : Context) (name : String) : Context :=
  { c with counters := c.counters.insert name (c.counter name + 1) }

/-- Replace the generator by what a draw leaves and keep what it drew. -/
def draw {α : Type} (sample : Random → α × Random) (c : Context) : α × Context :=
  let (a, random) := sample c.random
  (a, { c with random })

/-- Draw an index below `length`; nothing is drawn for length zero. -/
def drawIndex (length : Nat) (c : Context) : Option Nat × Context :=
  if length = 0 then (none, c)
  else
    let (i, c) := c.draw (Random.index length)
    (some i, c)

end Context

namespace Action

/-- Fail with a message under a function's name. -/
def fail {α : Type} (name message : String) : Action α :=
  throw (.function ⟨name, message⟩)

/-- The result of checked arithmetic. -/
def checked {α : Type} : Except WordFault α → Action α
  | .ok a => return a
  | .error fault => throw (.fault fault)

/-- The value of a counter, which moves on by one. -/
def nextCounter (name : String) : Action Nat :=
  modifyGet fun c => (c.counter name, c.advance name)

/-- Draw from the generator. -/
def draw {α : Type} (sample : Random → α × Random) : Action α :=
  modifyGet (Context.draw sample)

/-- Draw an index below `length`; nothing is drawn for length zero. -/
def drawIndex (length : Nat) : Action (Option Nat) :=
  modifyGet (Context.drawIndex length)

/-- Run an action: its outcome and the context it leaves. -/
def perform {α : Type} (action : Action α) (c : Context) : Except Failure α × Context :=
  (action.run).run c

end Action

/-- A counter that moved on stands one higher. -/
theorem Context.counter_advance (c : Context) (name other : String) :
    (c.advance name).counter other = c.counter other + if name = other then 1 else 0 := by
  simp only [counter, advance, Std.HashMap.getD_insert]
  split <;> simp_all

end GridStyle
