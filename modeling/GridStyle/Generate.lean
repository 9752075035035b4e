import GridStyle.Expansion.Tree
import GridStyle.Function.Builtin
import GridStyle.Function.Predicate
import GridStyle.Stylesheet.Basic

/-!
# Generating Stylesheets

A token tree is expanded twice. The first pass visits a single cell and finds out the grid. The
second visits every cell of that grid, or of the default if the tree asks for none, with a context
as fresh as that of the first. Special blocks that the first pass composed are not composed again.

The declarations are then written into the sections of a stylesheet, and the keyframes once for
every cell, under names of its own, and for the first cell also under the plain name.

## Main definitions

* `discover` and `expandGrid`: the two passes.
* `Stylesheet.ofRules` and `keyframesSection`: the sections of the stylesheet.
* `generate`: the whole of it, from a seed.
-/

namespace GridStyle

/-- A block of declarations. -/
def blockText (selector : String) (declarations : List String) : String :=
  selector ++ " \x7b\n" ++ String.join (declarations.map fun d => "  " ++ d ++ "\n") ++ "\x7d\n"

/-- A keyframes block. -/
def keyframesText (name body : String) : String :=
  "@keyframes " ++ name ++ " \x7b\n" ++ body ++ "\n\x7d\n"

namespace Stylesheet

/-- Write the declarations of a selector into its section. Those of the container go under its
class. -/
def addBlock (s : Stylesheet) (selector : String) (declarations : List String) : Stylesheet :=
  match Selector.afterName? Selector.containerNames selector with
  | some tail =>
    { s with container := s.container ++ blockText (Selector.containerClass ++ tail) declarations }
  | none =>
    if Selector.isHost selector then
      { s with host := s.host ++ blockText selector declarations }
    else { s with cells := s.cells ++ blockText selector declarations }

/-- The sections of the rules. -/
def ofRules (rules : List (String × List String)) : Stylesheet :=
  rules.foldl (fun s rule => s.addBlock rule.1 rule.2) {}

end Stylesheet

/-- The keyframes blocks of one definition for a cell: its own, and for the first cell the one
with the plain name before it. -/
def cellKeyframes (kit : Toolkit) (first : Bool) (cell : Cell) (keyframes : Keyframes) :
    Expanding String := do
  let body ← keyframesBody kit cell keyframes
  let own := keyframesText (Animation.cellName keyframes.name cell.count) body
  return if first then keyframesText keyframes.name body ++ own else own

/-- The keyframes section: for every visited cell the definitions that are known now. -/
def keyframesSection (kit : Toolkit) : Expanding String := do
  let s ← get
  let texts ← s.history.toList.zipIdx.mapM fun (cell, i) =>
    s.keyframes.definitions.mapM (cellKeyframes kit (i == 0) cell)
  return String.join texts.flatten

/-- The first pass: the grid that the tree asks for. -/
def discover (kit : Toolkit) (tokens : List Token) : Expanding (Option GridSize) := do
  expandCell kit true tokens Cell.discovery
  return (← get).grid

/-- The second pass: every cell of a grid, with a fresh context. -/
def expandGrid (kit : Toolkit) (seed : UInt64) (tokens : List Token) (grid : GridSize) :
    Expanding Unit := do
  -- The draws of the second pass do not go on from those of the first.
  modify fun s => { s.resetCells with context := Context.ofSeed seed }
  grid.cells.forM (expandCell kit false tokens)

/-- Both passes and the stylesheet. -/
def generation (kit : Toolkit) (seed : UInt64) (tokens : List Token) (default : GridSize) :
    Expanding Compiled := do
  -- The default is no grid of the first pass, which looks at the tree alone.
  let grid := (← discover kit tokens).getD default
  expandGrid kit seed tokens grid
  let styles := Stylesheet.ofRules (← get).rules.toList
  let keyframes ← keyframesSection kit
  return ⟨(← get).features, { styles with keyframes }, grid⟩

/-- Generate the stylesheet of a token tree. -/
def generate (kit : Toolkit) (seed : UInt64) (tokens : List Token) (default : GridSize) :
    Except Failure Compiled :=
  ((generation kit seed tokens default).perform (Expansion.ofSeed seed)).1

/-- All functions and predicates of this library. -/
def Toolkit.builtin : Toolkit :=
  { functions := FunctionRegistry.builtin, predicates := Predicates.builtin }

end GridStyle
