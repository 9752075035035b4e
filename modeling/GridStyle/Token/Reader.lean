import GridStyle.Grid.Text
import GridStyle.Json5.Text
import GridStyle.Token.Basic
import GridStyle.Token.Record

/-!
# Reading Token Trees

Token trees come as JSON5, either as an array of tokens or as a document object with an optional
grid. `ReadError` lists what can be wrong with a text: it is not JSON5, a literal in it has no
value, its structure is not that of a token tree, or it is not text at all.

The structure is read from the value of the text. A value is as deep as it is large at most, so
its size bounds the recursion.
-/

namespace GridStyle

open Json5 (Value)

/-- Why a token tree cannot be loaded. -/
inductive ReadError where
  /-- The text is not JSON5. -/
  | grammar
  /-- A literal has no value. -/
  | literal (error : Json5.LiteralError)
  /-- The value is not a token tree. -/
  | mismatch
  /-- The bytes are not UTF-8. -/
  | encoding
  deriving DecidableEq, Repr

/-- The message of a tree that cannot be loaded. -/
def ReadError.text (e : ReadError) : String :=
  "invalid token tree: " ++
    match e with
    | .grammar => "not a JSON5 text"
    | .literal error => error.text
    | .mismatch => "data did not match any variant of untagged enum DocumentRepr"
    | .encoding => "stream did not contain valid UTF-8"

namespace Token

/-- A list of values, read one by one; an absent field is an empty list. -/
def readList {α : Type} (read : Value → Option α) : Option Value → Option (List α)
  | none => some []
  | some value => value.array?.bind fun items => items.mapM read

mutual

/-- Read a piece of a value. -/
def readNode : Nat → Value → Option ValueNode
  | 0, _ => none
  | fuel + 1, value =>
    match value.tagged with
    | some ("text", record) =>
      match record.fields ["value"] with
      | some [some text] => text.text?.map .text
      | _ => none
    | some ("func", record) =>
      match record.fields ["name", "arguments", "position"] with
      | some [some name, arguments, position] => do
        let name ← name.text?
        let arguments ← readList (readArgument fuel) arguments
        -- An absent position is zero, and one that is no whole number is refused.
        let position ← (position.map Value.natural?).getD (some 0)
        return .call name arguments position
      | _ => none
    | _ => none

/-- Read an argument: a list of pieces, or an object that may ask for one input. -/
def readArgument : Nat → Value → Option Argument
  | 0, _ => none
  | fuel + 1, .array items => (items.mapM (readNode fuel)).map fun nodes => ⟨false, nodes⟩
  | fuel + 1, .object members =>
    match Value.objectFields ["cluster", "value"] members with
    | some [cluster, some nodes] => do
      let cluster ← (cluster.map Value.bool?).getD (some false)
      let nodes ← readList (readNode fuel) (some nodes)
      return ⟨cluster, nodes⟩
    | _ => none
  | _, _ => none

end

/-- Read a group of a value. -/
def readGroup (fuel : Nat) (value : Value) : Option ValueGroup :=
  readList (readNode fuel) (some value)

mutual

/-- Read a token. Its pseudo blocks are not numbered yet. -/
def readToken : Nat → Value → Option Token
  | 0, _ => none
  | fuel + 1, value =>
    match value.tagged with
    | some ("rule", record) => (readRule fuel record).map .rule
    | some ("pseudo", record) =>
      match record.fields ["selector", "styles"] with
      | some [some selector, styles] => do
        let selector ← selector.text?
        let styles ← readList (readRule fuel) styles
        return .pseudo 0 selector styles
      | _ => none
    | some ("cond", record) =>
      match record.fields ["name", "arguments", "styles"] with
      | some [some name, arguments, styles] => do
        let name ← name.text?
        let arguments ← readList (readArgument fuel) arguments
        let styles ← readList (readToken fuel) styles
        return .condition name arguments styles
      | _ => none
    | some ("keyframes", record) =>
      match record.fields ["name", "steps"] with
      | some [some name, steps] => do
        let name ← name.text?
        let steps ← readList (readStep fuel) steps
        return .keyframes name steps
      | _ => none
    | _ => none

/-- Read a rule without its kind. -/
def readRule : Nat → Value → Option Rule
  | 0, _ => none
  | fuel + 1, value =>
    match value.fields ["property", "value", "styles"] with
    | some [some property, groups, styles] => do
      let property ← property.text?
      let groups ← readList (readGroup fuel) groups
      let styles ← readList (readToken fuel) styles
      return ⟨property, groups, styles⟩
    | _ => none

/-- Read a keyframes step. -/
def readStep : Nat → Value → Option Step
  | 0, _ => none
  | fuel + 1, value =>
    match value.fields ["name", "styles"] with
    | some [some name, styles] => do
      let name ← name.text?
      let styles ← readList (readRule fuel) styles
      return ⟨name, styles⟩
    | _ => none

end

/-- Read the tokens of a list. -/
def readTokens (value : Value) : Option (List Token) :=
  readList (readToken value.size) (some value)

/-- Read a single rule, as a value of its own. -/
def readSingleRule (value : Value) : Option Rule :=
  readRule value.size value

end Token

namespace TokenDocument

/-- The grid that a document declares; `null` declares none. -/
def readGrid : Option Value → Option (Option GridSize)
  | none | some .null => some none
  | some (.text text) => some (some (GridSize.ofText text))
  | some _ => none

/-- The document with these tokens, numbered from zero, and this grid. -/
def ofTokens (tokens : List Token) (grid : Option GridSize) : TokenDocument :=
  ⟨(Token.number 0 tokens).1, grid⟩

/-- Read a document from a value: an array of tokens, or an object with tokens and a grid. -/
def ofValue? : Value → Option TokenDocument
  | .object members =>
    match Value.objectFields ["grid", "tokens"] members with
    | some [grid, some tokens] => do
      let grid ← readGrid grid
      let tokens ← Token.readTokens tokens
      return ofTokens tokens grid
    | _ => none
  | value => (Token.readTokens value).map fun tokens => ofTokens tokens none

/-- Load a document from a text. -/
def parse (text : String) : Except ReadError TokenDocument :=
  match Json5.parse text with
  | .error .grammar => .error .grammar
  | .error (.literal error) => .error (.literal error)
  | .ok value =>
    match ofValue? value with
    | some document => .ok document
    | none => .error .mismatch

/-- Load a document from bytes. -/
def parseBytes (bytes : ByteArray) : Except ReadError TokenDocument :=
  match String.fromUTF8? bytes with
  | some text => parse text
  | none => .error .encoding

end TokenDocument

end GridStyle
