import GridStyle.Function.Registry
import GridStyle.Selector
import GridStyle.Text.Split
import GridStyle.Token.Basic

/-!
# Texts of Values

A value becomes text by copying its texts and calling its functions, from left to right. A call
of an unknown function and a call without a result are empty.

An argument gives its function any number of inputs. Several pieces, or a cluster, make one
input; the text of a single piece is cut at its top-level commas, so a function can pass a list
to the function around it. Empty inputs are dropped.
-/

namespace GridStyle

/-- The inputs that the pieces of an argument make. -/
def inputsOf (cluster : Bool) (texts : List String) : List String :=
  match cluster, texts with
  | false, [] => []
  | false, [text] => Text.splitGroup text
  | _, texts =>
    let joined := String.join texts
    if joined.isEmpty then [] else [joined]

/-- The inputs that an unevaluated argument sees: those it is given, or else those of the call
around it. -/
def visibleInputs (outer inner : List String) : List String :=
  if inner.isEmpty then outer else inner

mutual

/-- The text of a piece of a value in a cell, with injected inputs. -/
def nodeText (functions : FunctionRegistry) (cell : Cell) :
    ValueNode → List String → Action String
  | .text value, _ => return value
  | .call name arguments position, extra =>
    match functions.find? (Selector.stripMarker name) with
    | none => return ""
    | some (.eager f) => do
      let inputs ← argumentInputs functions cell arguments extra
      return (← f ⟨cell, position, extra⟩ inputs).getD ""
    | some (.lazy f) => do
      return (← f ⟨cell, position, extra⟩ (suspended functions cell arguments extra)).getD ""

/-- The texts of the pieces of a value. -/
def nodeTexts (functions : FunctionRegistry) (cell : Cell) :
    List ValueNode → List String → Action (List String)
  | [], _ => return []
  | node :: nodes, extra => do
    let text ← nodeText functions cell node extra
    let texts ← nodeTexts functions cell nodes extra
    return text :: texts

/-- The inputs of the arguments of a call. -/
def argumentInputs (functions : FunctionRegistry) (cell : Cell) :
    List Argument → List String → Action (List String)
  | [], _ => return []
  | ⟨cluster, nodes⟩ :: arguments, extra => do
    let texts ← nodeTexts functions cell nodes extra
    let inputs ← argumentInputs functions cell arguments extra
    return inputsOf cluster texts ++ inputs

/-- The arguments of a call, to be evaluated with other inputs. -/
def suspended (functions : FunctionRegistry) (cell : Cell) :
    List Argument → List String → List LazyArgument
  | [], _ => []
  | ⟨_, nodes⟩ :: arguments, extra =>
    (fun inner => String.join <$> nodeTexts functions cell nodes (visibleInputs extra inner)) ::
      suspended functions cell arguments extra

end

/-- The text of a group. -/
def groupText (functions : FunctionRegistry) (cell : Cell) (group : ValueGroup)
    (extra : List String) : Action String :=
  String.join <$> nodeTexts functions cell group extra

/-- The texts of groups, without empty ones. -/
def groupTexts (functions : FunctionRegistry) (cell : Cell) (groups : List ValueGroup) :
    Action (List String) := do
  let texts ← groups.mapM fun group => groupText functions cell group []
  return texts.filter (!·.isEmpty)

end GridStyle
