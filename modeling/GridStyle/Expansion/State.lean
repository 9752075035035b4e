import GridStyle.Directive
import GridStyle.Expansion.KeyframeStore
import GridStyle.Expansion.RuleStore
import GridStyle.Function.Registry
import GridStyle.VendorPrefix

/-!
# Expansion State

The state of an expansion: what has been composed, which grid was found, and the context that the
functions share. `Expanding` is a step of the expansion, which fails where an action does; the state
after a failure is kept.
-/

namespace GridStyle

/-- What the composed styles make use of. -/
structure Features where
  /-- Some declaration is an animation. -/
  animation : Bool := false
  /-- Some declaration is a transition. -/
  transition : Bool := false
  deriving DecidableEq, Repr

/-- The functions and the way of writing that an expansion uses. -/
structure Toolkit where
  /-- The value functions. -/
  functions : FunctionRegistry
  /-- The selector predicates. -/
  predicates : PredicateRegistry
  /-- How declarations are written. -/
  prefixing : Prefixing := .vendor

/-- The state of an expansion. -/
structure Expansion where
  /-- The declarations by selector. -/
  rules : RuleStore := {}
  /-- The keyframes definitions. -/
  keyframes : KeyframeStore := {}
  /-- What the declarations make use of. -/
  features : Features := {}
  /-- The grid that was found. -/
  grid : Option GridSize := none
  /-- A grid directive was composed, so that later ones on cells do not count. -/
  gridDefined : Bool := false
  /-- The grid is that of the host, which counts more than one of a cell. -/
  hostGrid : Bool := false
  /-- The grid is being looked for. -/
  discovering : Bool := false
  /-- The cells that were visited. -/
  history : Array Cell := #[]
  /-- The identities of the special blocks that were composed. -/
  composed : List Nat := []
  /-- What the functions share. -/
  context : Context

/-- A step of an expansion, which may fail. -/
abbrev Expanding (α : Type) := ExceptT Failure (StateM Expansion) α

namespace Expansion

/-- The state before the first step. -/
def ofSeed (seed : UInt64) : Expansion := { context := Context.ofSeed seed }

/-- Forget what belongs to cells. Special blocks, keyframes and the grid stay. -/
def resetCells (s : Expansion) : Expansion :=
  { s with rules := s.rules.dropCells, history := #[] }

/-- Add a declaration to a selector. -/
def push (s : Expansion) (selector declaration : String) : Expansion :=
  { s with rules := s.rules.push selector declaration }

end Expansion

namespace Expanding

/-- Run an action on the shared context. -/
def act {α : Type} (action : Action α) : Expanding α := do
  let outcome ← modifyGet fun s =>
    let (outcome, context) := action.perform s.context
    (outcome, { s with context })
  -- The context is in place before a failure is passed on.
  match outcome with
  | .ok a => return a
  | .error e => throw e

/-- Run a step: its outcome and the state it leaves. -/
def perform {α : Type} (step : Expanding α) (s : Expansion) :
    Except Failure α × Expansion :=
  (step.run).run s

end Expanding

end GridStyle
