import GridStyle.Grid.Text
import GridStyle.Shape
import GridStyle.Text.Split

/-!
# Directives

Properties that start with `@` stand for declarations of several properties. `Directive.apply`
gives the text of a known directive, and for `@grid` the grid and the sizing text that came with
it. A name it does not know is an ordinary property.

A value with two axes is written `a b` or `a, b`; a single axis counts for both.
-/

namespace GridStyle.Directive

/-- What a directive stands for. -/
inductive Effect where
  /-- Declarations in its place. -/
  | declaration (text : String)
  /-- A grid, and the sizing of the host that was written with it. -/
  | grid (size : GridSize) (sizing : String)
  deriving DecidableEq, Repr

/-- The axes of a value: the items of a list, or else the words. -/
def axes (value : String) : List String :=
  let items := Text.splitGroup value
  if 1 < items.length then items else Text.splitWords value

/-- The two axes of a value, the first one also for a second one that is absent. -/
def pair? (value : String) : Option (String × String) :=
  match axes value with
  | [] => none
  | [first] => some (first, first)
  | first :: second :: _ => some (first, second)

/-- One declaration. -/
def declare (property value : String) : String :=
  property ++ ": " ++ value ++ ";"

/-- The properties in which a cell repeats its own size for its contents. -/
def internalSize (property : String) : String := "--internal-cell-" ++ property

/-- Sizes of two properties. A cell repeats them for its contents. -/
def sizing (width height : String) (repeated : Bool) (value : String) : String :=
  match pair? value with
  | none => ""
  | some (w, h) =>
    declare width w ++ " " ++ declare height h ++
      if repeated then
        " " ++ declare (internalSize width) w ++ " " ++ declare (internalSize height) h
      else ""

/-- The grid of a value and the sizing after its first slash. Only a cell repeats the sizes. -/
def readGrid (special : Bool) (value : String) : GridSize × String :=
  let text := value.toList
  let sizes := String.ofList (Text.trim ((text.dropWhile (· != '/')).drop 1))
  let size := GridSize.ofText (String.ofList (Text.trim (text.takeWhile (· != '/'))))
  (size, if sizes.isEmpty then "" else sizing "width" "height" (!special) sizes)

/-- The horizontal place of a keyword. -/
def leftOf : String → String
  | "center" | "top" | "bottom" => "50%"
  | "left" => "0%"
  | "right" => "100%"
  | place => place

/-- The vertical place of a keyword. -/
def topOf : String → String
  | "center" | "left" | "right" => "50%"
  | "top" => "0%"
  | "bottom" => "100%"
  | place => place

/-- The width of a cell as its contents see it. -/
def cellWidth : String := "var(--internal-cell-width, 25%)"

/-- The height of a cell as its contents see it. -/
def cellHeight : String := "var(--internal-cell-height, 25%)"

/-- Half of a length to the other side. -/
def backHalf (length : String) : String := "calc(" ++ length ++ " / -2) !important"

/-- Place a cell with its middle at a point. -/
def placement (value : String) : String :=
  match pair? value with
  | none => ""
  | some (left, top) =>
    String.intercalate " "
      [declare "position" "absolute", declare "left" (leftOf left), declare "top" (topOf top),
        declare "width" cellWidth, declare "height" cellHeight,
        declare "margin-left" (backHalf cellWidth), declare "margin-top" (backHalf cellHeight),
        declare "grid-area" "unset !important"]

/-- A clip path by the name of its shape. Arguments follow the name as words or as items. -/
def shape (value : String) : String :=
  match Text.splitGroup value with
  | [] => ""
  | first :: items =>
    let words := Text.plainWords first
    match Shape.ofName? (words.headD "") (words.drop 1 ++ items) with
    | some path => declare "clip-path" path
    | none => ""

/-- What a directive stands for on a special selector or on a cell, if it is one. -/
def apply (property value : String) (special : Bool) : Option Effect :=
  match property with
  | "@grid" =>
    let (size, sizing) := readGrid special value
    some (.grid size sizing)
  | "@size" => some (.declaration (sizing "width" "height" (!special) value))
  | "@min-size" => some (.declaration (sizing "min-width" "min-height" false value))
  | "@max-size" => some (.declaration (sizing "max-width" "max-height" false value))
  | "@place-cell" => some (.declaration (placement value))
  | "@shape" => some (.declaration (shape value))
  | "@use" => some (.declaration "")
  | _ => none

end GridStyle.Directive
