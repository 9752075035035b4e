import GridStyle.Decimal.Quantity
import GridStyle.Text.Split

/-!
# Declarations

What is done with the text of a value depends on the kind of its property: texts for generated
content are quoted, and animations are renamed so that every cell runs keyframes of its own.
-/

namespace GridStyle

/-- The kinds of properties. -/
inductive PropertyKind where
  /-- The shorthand `animation`. -/
  | animation
  /-- `animation-name`. -/
  | animationName
  /-- `content`. -/
  | content
  /-- `transition`. -/
  | transition
  /-- `clip-path`. -/
  | clipPath
  /-- `width` or `height`. -/
  | dimension
  /-- The directive `@grid`. -/
  | grid
  /-- The directive `@place-cell`. -/
  | placeCell
  /-- The directive `@use`. -/
  | inclusion
  /-- Any other name with the marker of directives. -/
  | directive
  /-- Any other name. -/
  | plain
  deriving DecidableEq, Repr

/-- The kind of a property. -/
def PropertyKind.ofName : String → PropertyKind
  | "animation" => .animation
  | "animation-name" => .animationName
  | "content" => .content
  | "transition" => .transition
  | "clip-path" => .clipPath
  | "width" | "height" => .dimension
  | "@grid" => .grid
  | "@place-cell" => .placeCell
  | "@use" => .inclusion
  | name => if name.toList.head? = some '@' then .directive else .plain

namespace Animation

/-- The words of the shorthand that never name an animation. -/
def keywords : List String :=
  ["none", "infinite", "normal", "reverse", "alternate", "alternate-reverse", "forwards",
    "backwards", "both", "running", "paused", "linear", "ease", "ease-in", "ease-out",
    "ease-in-out", "step-start", "step-end", "initial", "inherit", "unset"]

/-- The name of a cell's own keyframes. -/
def cellName (name : String) (count : Nat) : String := name ++ "-" ++ toString count

/-- A reference to keyframes becomes one to those of the cell. Keywords stay. -/
def refer (name : String) (count : Nat) : String :=
  if name.isEmpty ∨ name ∈ keywords then name else cellName name count

/-- The units of times and of repeat counts. -/
def timeUnits : List String := ["", "s", "ms"]

/-- A word of the shorthand names an animation: it is no keyword, no function, no time and no
repeat count. -/
def isName (word : String) : Bool :=
  if word ∈ keywords ∨ '(' ∈ word.toList then false
  else
    match Decimal.readQuantity word with
    -- Other units have no place in the shorthand, so a number with one is taken for a name.
    | some quantity => quantity.unit ∉ timeUnits
    | none => true

/-- Change the first element that satisfies a condition. -/
def changeFirst {α : Type} (p : α → Bool) (f : α → α) : List α → List α
  | [] => []
  | a :: as => if p a then f a :: as else a :: changeFirst p f as

/-- A shorthand whose first name refers to the keyframes of the cell. -/
def referShorthand (count : Nat) (shorthand : String) : String :=
  String.intercalate " "
    (changeFirst isName (fun name => refer name count) (Text.splitWords shorthand))

/-- The value of an animation property whose names refer to the keyframes of the cell. -/
def referAll (kind : PropertyKind) (count : Nat) (texts : List String) : String :=
  String.intercalate ", " <| texts.map fun text =>
    if kind = .animationName then refer (Text.trimText text) count
    else referShorthand count text

end Animation

namespace Content

/-- The functions whose calls are written without quotes. -/
def calls : List String := ["var(", "counter(", "counters(", "attr("]

/-- The text is content as it stands: it has a quotation mark, is `none`, or calls a function. -/
def isBare (text : String) : Bool :=
  text.toList.any (fun c => c == '\x22' || c == '\x27') || text == "none" ||
    calls.any fun call => call.toList.isPrefixOf text.toList

/-- Content with quotation marks where it needs them. -/
def quote (text : String) : String :=
  if isBare text then text else "\x27" ++ text ++ "\x27"

end Content

end GridStyle
