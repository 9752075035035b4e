import GridStyle.Json5.Value
import GridStyle.Token.Basic

/-!
# Writing Token Trees

Tokens as JSON5 values in their full form: every field is written, except that a rule without
inclusions has no `styles`, and arguments are always objects. Reading a written tree gives the
tree back.
-/

namespace GridStyle

open Json5 (Value)

mutual

/-- Write a piece of a value. -/
def ValueNode.toValue : ValueNode → Value
  | .text value => .object [("type", .text "text"), ("value", .text value)]
  | .call name arguments position =>
    .object [("type", .text "func"), ("name", .text name),
      ("arguments", .array (argumentValues arguments)), ("position", .whole position)]

/-- Write an argument. -/
def Argument.toValue : Argument → Value
  | ⟨cluster, nodes⟩ =>
    .object [("cluster", .bool cluster), ("value", .array (nodeValues nodes))]

/-- Write the arguments of a call. -/
def argumentValues : List Argument → List Value
  | [] => []
  | argument :: arguments => argument.toValue :: argumentValues arguments

/-- Write the pieces of a value. -/
def nodeValues : List ValueNode → List Value
  | [] => []
  | node :: nodes => node.toValue :: nodeValues nodes

end

/-- Write the groups of a value. -/
def groupValues (groups : List ValueGroup) : Value :=
  .array (groups.map fun group => .array (nodeValues group))

mutual

/-- Write a token. -/
def Token.toValue : Token → Value
  | .rule declaration => .object (("type", .text "rule") :: ruleMembers declaration)
  | .pseudo _ selector styles =>
    .object [("type", .text "pseudo"), ("selector", .text selector),
      ("styles", .array (ruleValues styles))]
  | .condition name arguments styles =>
    .object [("type", .text "cond"), ("name", .text name),
      ("arguments", .array (argumentValues arguments)), ("styles", .array (tokenValues styles))]
  | .keyframes name steps =>
    .object [("type", .text "keyframes"), ("name", .text name),
      ("steps", .array (stepValues steps))]

/-- Write tokens. -/
def tokenValues : List Token → List Value
  | [] => []
  | token :: tokens => token.toValue :: tokenValues tokens

/-- The members of a written rule. -/
def ruleMembers : RuleOf Token → List (String × Value)
  | ⟨property, value, []⟩ => [("property", .text property), ("value", groupValues value)]
  | ⟨property, value, token :: tokens⟩ =>
    [("property", .text property), ("value", groupValues value),
      ("styles", .array (token.toValue :: tokenValues tokens))]

/-- Write rules. -/
def ruleValues : List (RuleOf Token) → List Value
  | [] => []
  | declaration :: rest => .object (ruleMembers declaration) :: ruleValues rest

/-- Write a keyframes step. -/
def stepValue : StepOf Token → Value
  | ⟨name, styles⟩ => .object [("name", .text name), ("styles", .array (ruleValues styles))]

/-- Write keyframes steps. -/
def stepValues : List (StepOf Token) → List Value
  | [] => []
  | step :: steps => stepValue step :: stepValues steps

end

end GridStyle
