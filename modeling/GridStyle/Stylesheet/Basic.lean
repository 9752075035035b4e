import GridStyle.Expansion.State
import GridStyle.Json5.Pretty

/-!
# Stylesheets

A compiled stylesheet has four sections, which can be used apart: the host, the container, the
cells and the keyframes. The result of a compilation also tells the grid and what the styles make
use of, and is written as CSS or as JSON.
-/

namespace GridStyle

/-- The sections of a stylesheet. -/
structure Stylesheet where
  /-- The rules of the host. -/
  host : String := ""
  /-- The rules of the container. -/
  container : String := ""
  /-- The rules of the cells. -/
  cells : String := ""
  /-- The keyframes. -/
  keyframes : String := ""
  deriving DecidableEq, Repr

namespace Stylesheet

/-- The sections in order. -/
def sections (s : Stylesheet) : List String := [s.host, s.container, s.cells, s.keyframes]

/-- The stylesheet as one text: the sections that are not empty, with an empty line between. -/
def toCss (s : Stylesheet) : String :=
  String.intercalate "\n" (s.sections.filter (!·.isEmpty))

end Stylesheet

/-- The result of a compilation. -/
structure Compiled where
  /-- What the styles make use of. -/
  features : Features
  /-- The styles. -/
  styles : Stylesheet
  /-- The grid. -/
  grid : GridSize
  deriving DecidableEq, Repr

/-- The features as a value. -/
def Features.toValue (f : Features) : Json5.Value :=
  .object [("has_animation", .bool f.animation), ("has_transition", .bool f.transition)]

/-- The sections as a value. -/
def Stylesheet.toValue (s : Stylesheet) : Json5.Value :=
  .object [("host", .text s.host), ("container", .text s.container), ("cells", .text s.cells),
    ("keyframes", .text s.keyframes)]

/-- The sides and the count of a grid as a value. -/
def GridSize.toValue (g : GridSize) : Json5.Value :=
  .object [("x", .whole g.x), ("y", .whole g.y), ("z", .whole g.z), ("count", .whole g.count)]

/-- The result as a value. -/
def Compiled.toValue (c : Compiled) : Json5.Value :=
  .object [("props", c.features.toValue), ("styles", c.styles.toValue), ("grid", c.grid.toValue)]

end GridStyle
