import GridStyle.Expansion.Declaration
import GridStyle.Expansion.State
import GridStyle.Expansion.Text

/-!
# Expanding Token Trees

A token tree is walked once for every cell. Rules are composed for the cell, pseudo blocks for
its pseudo selectors, and conditional blocks only where their predicate holds. Blocks for the
host or the container do not depend on the cell and are composed once.

The *initial* walk looks for a grid. As soon as some grid is known, the tokens that are left are
only searched for a grid of the host, which counts more than that of a cell.

## Main definitions

* `expandTokens`: walking tokens for a cell, mutual with `composeRule`, the text of one rule.
* `seekHostGrid`: the search for a grid of the host.
* `expandCell`: the visit of one cell.
* `keyframesBody`: the body of a keyframes definition in a cell.
-/

namespace GridStyle

namespace Expansion

/-- The grid directive of the host. -/
def setHostGrid (s : Expansion) (grid : GridSize) : Expansion :=
  { s with grid := some grid, gridDefined := true, hostGrid := true }

/-- A grid directive of a cell, whose sizing goes to the host. Only the first one counts. -/
def setCellGrid (s : Expansion) (grid : GridSize) (sizing : String) : Expansion :=
  if s.gridDefined then s
  else { s.push Selector.host sizing with grid := some grid, gridDefined := true }

/-- Use of a feature by a kind of property. -/
def noteFeature (s : Expansion) : PropertyKind → Expansion
  | .animation | .animationName => { s with features := { s.features with animation := true } }
  | .transition => { s with features := { s.features with transition := true } }
  | _ => s

end Expansion

/-- The value of a property in a cell, from the texts of its groups. -/
def propertyValue (kind : PropertyKind) (cell : Cell) (texts : List String) : String :=
  let joined := String.intercalate ", " texts
  match kind with
  | .animation | .animationName =>
    -- A single cell runs the keyframes under their plain names.
    if 1 < cell.grid.count then Animation.referAll kind cell.count texts else joined
  | .content => Content.quote joined
  | _ => joined

/-- A declaration with what belongs to it: prefixed copies, the overflow of a clipped box, and
the size that a cell repeats for its contents. -/
def declarationText (kit : Toolkit) (kind : PropertyKind) (special : Bool)
    (property value : String) : String :=
  kit.prefixing.write property (Directive.declare property value) ++
    match kind with
    | .clipPath => " overflow: hidden;"
    | .dimension =>
      if special then ""
      else " " ++ Directive.declare (Directive.internalSize property) value
    | _ => ""

/-- Carry out a grid directive: what is written in its place. -/
def defineGrid (value : String) (host : Bool) : Expanding String := do
  let (size, sizing) := Directive.readGrid true value
  if host then
    modify fun s => s.setHostGrid size
    return sizing
  else
    modify fun s => s.setCellGrid size sizing
    return ""

/-- The text of a rule that includes nothing. Rules of keyframes have no selector. -/
def composeProperty (kit : Toolkit) (kind : PropertyKind) (selector : Option String)
    (property value : String) : Expanding String := do
  let special := selector.any Selector.isSpecial
  let host := selector.any Selector.isHost
  match Directive.apply property value special with
  | none => return declarationText kit kind special property value
  | some (.grid _ _) => defineGrid value host
  -- The host is not placed like a cell.
  | some (.declaration text) => return if kind = .placeCell ∧ host = true then "" else text

/-- The predicate of a conditional block holds in a cell. An unknown one never does. -/
def holds (kit : Toolkit) (cell : Cell) (name : String) (arguments : List Argument) :
    Action Bool :=
  match kit.predicates.find? (Selector.stripMarker name) with
  | none => return false
  | some predicate => do
    let inputs ← argumentInputs kit.functions cell arguments []
    predicate ⟨cell, 0, []⟩ inputs

/-- The parts of a selector list: cut at every comma, trimmed and not empty. -/
def selectorParts (selector : String) : List String :=
  ((Text.cutAt (· == ',') selector.toList).map fun part => String.ofList (Text.trim part)).filter
    (!·.isEmpty)

/-- Take the grids that a list of rules sets, without composing anything else. -/
def seekGrids (kit : Toolkit) (cell : Cell) : List Rule → Expanding Unit
  | [] => return
  | declaration :: rest => do
    if PropertyKind.ofName declaration.property = .grid then
      let texts ← Expanding.act (groupTexts kit.functions cell declaration.value)
      let (size, _) := Directive.readGrid true (String.intercalate ", " texts)
      -- Of several grids the last one counts.
      modify fun s => { s with grid := some size, hostGrid := true }
    seekGrids kit cell rest

/-- Some part of a selector list addresses the host. -/
def addressesHost (selector : String) : Bool :=
  (selectorParts (Selector.normalize selector)).any Selector.isHost

mutual

/-- Search tokens for a grid of the host until there is one. -/
def seekHostGrid (kit : Toolkit) (cell : Cell) : List Token → Expanding Unit
  | [] => return
  | token :: rest => do
    if (← get).hostGrid then return
    seekToken kit cell token
    seekHostGrid kit cell rest

/-- Search one token for a grid of the host. -/
def seekToken (kit : Toolkit) (cell : Cell) : Token → Expanding Unit
  | .pseudo _ selector styles => do
    if addressesHost selector then seekGrids kit cell styles
  | .condition name arguments styles => do
    if ← Expanding.act (holds kit cell name arguments) then seekHostGrid kit cell styles
  | .rule _ | .keyframes _ _ => return

end

/-- The selector under which a part of a pseudo block is composed. -/
def partSelector (cell : Cell) (special : Bool) (part : String) : String :=
  if special then Selector.normalize part else Selector.ofCell cell part

/-- Begin a special block, which from then on counts as composed. -/
def beginSpecial (id : Nat) : Expanding Unit :=
  modify fun s => { s with composed := id :: s.composed }

mutual

/-- Walk the tokens for a cell. -/
def expandTokens (kit : Toolkit) (cell : Cell) (initial : Bool) : List Token → Expanding Unit
  | [] => return
  | token :: rest => do
    let s ← get
    if initial && s.grid.isSome then
      -- The grid of a cell can still give way to one of the host.
      unless s.hostGrid do seekHostGrid kit cell (token :: rest)
    else
      expandToken kit cell initial token
      expandTokens kit cell initial rest

/-- Walk one token for a cell. -/
def expandToken (kit : Toolkit) (cell : Cell) (initial : Bool) : Token → Expanding Unit
  | .rule declaration => do
    let selector := Selector.ofCell cell ""
    let text ← composeRule kit cell (some selector) declaration
    modify fun s => s.push selector text
  | .pseudo id selector styles => do
    if id ∈ (← get).composed then return
    let selector := Selector.normalize selector
    let special := Selector.isSpecial selector
    -- The block counts as composed even if a function fails in it.
    if special then beginSpecial id
    (selectorParts selector).forM fun part =>
      expandRules kit cell (partSelector cell special part) styles
  | .condition name arguments styles => do
    if ← Expanding.act (holds kit cell name arguments) then
      expandTokens kit cell initial styles
  | .keyframes name steps =>
    modify fun s => { s with keyframes := s.keyframes.register ⟨name, steps⟩ }

/-- Compose rules for a selector. -/
def expandRules (kit : Toolkit) (cell : Cell) (selector : String) :
    List (RuleOf Token) → Expanding Unit
  | [] => return
  | declaration :: rest => do
    let text ← composeRule kit cell (some selector) declaration
    modify fun s => s.push selector text
    expandRules kit cell selector rest

/-- The text of a rule for a selector; rules of keyframes have none. The text may be empty, as
that of an inclusion, whose tokens are walked. -/
def composeRule (kit : Toolkit) (cell : Cell) (selector : Option String) :
    RuleOf Token → Expanding String
  | ⟨property, value, styles⟩ => do
    let kind := PropertyKind.ofName property
    let texts ← Expanding.act (groupTexts kit.functions cell value)
    modify fun s => s.noteFeature kind
    if kind = .inclusion then
      -- The value is composed for its effects only.
      expandTokens kit cell (← get).discovering styles
      return ""
    else
      composeProperty kit kind selector property (propertyValue kind cell texts)

end

/-- Walk a token tree for a cell and record the visit. -/
def expandCell (kit : Toolkit) (initial : Bool) (tokens : List Token) (cell : Cell) :
    Expanding Unit := do
  modify fun s => { s with history := s.history.push cell, discovering := initial }
  expandTokens kit cell initial tokens

/-- The text of a step of keyframes in a cell. -/
def stepText (kit : Toolkit) (cell : Cell) (step : Step) : Expanding String := do
  let texts ← step.styles.mapM (composeRule kit cell none)
  return "  " ++ step.name ++ " \x7b " ++
    String.intercalate " " (texts.filter (!·.isEmpty)) ++ " \x7d"

/-- The body of keyframes in a cell. -/
def keyframesBody (kit : Toolkit) (cell : Cell) (keyframes : Keyframes) : Expanding String := do
  let texts ← keyframes.steps.mapM (stepText kit cell)
  return String.intercalate "\n" texts

end GridStyle
