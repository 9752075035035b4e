import GridStyle.Grid.Basic

/-!
# Token Trees

The input of the compiler: rules, blocks for pseudo selectors, conditional blocks and keyframes.
A rule's value is a list of groups, and a group is a sequence of texts and function calls.

Every pseudo block carries a number, its identity. Blocks that address the host or the container
are composed once per block, not once per equal block, so two blocks with the same contents have
to be told apart. `Token.number` gives the blocks of a list consecutive numbers.
-/

namespace GridStyle

mutual

/-- A piece of a value: text, or a function call. -/
inductive ValueNode where
  /-- Text that is copied. -/
  | text (value : String)
  /-- A call of the function `name`, written with its marker, at a source position. -/
  | call (name : String) (arguments : List Argument) (position : Nat)

/-- An argument of a call: a value of its own. -/
structure Argument where
  /-- The argument is one input even when it looks like a list. -/
  cluster : Bool
  /-- The pieces of the value. -/
  nodes : List ValueNode

end

/-- One item of a value list. -/
abbrev ValueGroup := List ValueNode

/-- A declaration whose inclusions are tokens of type `τ`. -/
structure RuleOf (τ : Type) where
  /-- The property or directive. -/
  property : String
  /-- The groups of the value. -/
  value : List ValueGroup := []
  /-- The tokens that an inclusion carries. -/
  styles : List τ := []

/-- A keyframes step: `0%`, `from` and so on. -/
structure StepOf (τ : Type) where
  /-- The moment of the step. -/
  name : String
  /-- Its declarations. -/
  styles : List (RuleOf τ) := []

/-- A node of the token tree. -/
inductive Token where
  /-- A declaration. -/
  | rule (declaration : RuleOf Token)
  /-- Declarations for a pseudo selector; `id` is the identity of the block. -/
  | pseudo (id : Nat) (selector : String) (styles : List (RuleOf Token))
  /-- Tokens that count where a predicate holds. -/
  | condition (name : String) (arguments : List Argument) (styles : List Token)
  /-- A keyframes definition. -/
  | keyframes (name : String) (steps : List (StepOf Token))

/-- A declaration: `property: value, …`. -/
abbrev Rule := RuleOf Token

/-- A step of a keyframes definition. -/
abbrev Step := StepOf Token

/-- A keyframes definition. -/
structure Keyframes where
  /-- The name of the animation. -/
  name : String
  /-- Its steps. -/
  steps : List Step

/-- A rule whose value is plain text. -/
def RuleOf.ofText {τ : Type} (property value : String) : RuleOf τ :=
  { property, value := [[.text value]] }

/-- An argument that is plain text. -/
def Argument.ofText (value : String) : Argument := ⟨false, [.text value]⟩

namespace Token

mutual

/-- Give the pseudo blocks of a list consecutive numbers in document order, starting with
`next`. The first number that was not used comes back too. -/
def number (next : Nat) : List Token → List Token × Nat
  | [] => ([], next)
  | token :: rest =>
    let (token, next) := numberToken next token
    let (rest, next) := number next rest
    (token :: rest, next)

/-- Number the pseudo blocks at and below a token. A block is numbered before those in it. -/
def numberToken (next : Nat) : Token → Token × Nat
  | .rule declaration =>
    let (declaration, next) := numberRule next declaration
    (.rule declaration, next)
  | .pseudo _ selector styles =>
    let (styles, after) := numberRules (next + 1) styles
    (.pseudo next selector styles, after)
  | .condition name arguments styles =>
    let (styles, next) := number next styles
    (.condition name arguments styles, next)
  | .keyframes name steps =>
    let (steps, next) := numberSteps next steps
    (.keyframes name steps, next)

/-- Number the pseudo blocks that a rule includes. -/
def numberRule (next : Nat) : RuleOf Token → RuleOf Token × Nat
  | ⟨property, value, styles⟩ =>
    let (styles, next) := number next styles
    (⟨property, value, styles⟩, next)

/-- Number the pseudo blocks that rules include. -/
def numberRules (next : Nat) : List (RuleOf Token) → List (RuleOf Token) × Nat
  | [] => ([], next)
  | declaration :: rest =>
    let (declaration, next) := numberRule next declaration
    let (rest, next) := numberRules next rest
    (declaration :: rest, next)

/-- Number the pseudo blocks that the rules of a step include. -/
def numberStep (next : Nat) : StepOf Token → StepOf Token × Nat
  | ⟨name, styles⟩ =>
    let (styles, next) := numberRules next styles
    (⟨name, styles⟩, next)

/-- Number the pseudo blocks that the rules of some steps include. -/
def numberSteps (next : Nat) : List (StepOf Token) → List (StepOf Token) × Nat
  | [] => ([], next)
  | step :: rest =>
    let (step, next) := numberStep next step
    let (rest, next) := numberSteps next rest
    (step :: rest, next)

end

end Token

/-- A loaded token tree and the grid it asks for. -/
structure TokenDocument where
  /-- The tokens, their pseudo blocks numbered. -/
  tokens : List Token
  /-- The grid that the document declares. -/
  grid : Option GridSize := none

end GridStyle
