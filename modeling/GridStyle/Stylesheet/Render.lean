import GridStyle.Json5.Pretty
import GridStyle.Stylesheet.Basic

/-!
# Output Formats

A result is written as CSS, which may be minified, or as indented JSON. Every format has its file
extension. JSON results get a longer one, because files of token trees end in `.json` as well.

The minifier is not part of the library. Whoever renders a result brings one along (`Minifier`), and
nothing is taken for granted about it.
-/

namespace GridStyle

/-- How a result is written. -/
inductive OutputFormat where
  /-- A stylesheet. -/
  | css
  /-- The whole result. -/
  | json
  deriving DecidableEq, Repr

namespace OutputFormat

/-- The extension of files in this format. -/
def extension : OutputFormat → String
  | .css => "css"
  | .json => "out.json"

/-- The name of the format in settings. -/
def name : OutputFormat → String
  | .css => "css"
  | .json => "json"

/-- The format of a name. -/
def ofName? : String → Option OutputFormat
  | "css" => some .css
  | "json" => some .json
  | _ => none

end OutputFormat

/-- A minifier of stylesheets. -/
class Minifier where
  /-- A stylesheet in short, unless it cannot be minified. -/
  minify? : String → Option String

namespace Minifier

/-- Every stylesheet stays as it is. -/
scoped instance verbatim : Minifier := ⟨some⟩

end Minifier

/-- The text of a result. A stylesheet that cannot be minified is written as it is. -/
def Compiled.render [Minifier] (c : Compiled) (format : OutputFormat) (minify : Bool) : String :=
  match format with
  | .json => c.toValue.pretty
  | .css =>
    let css := c.styles.toCss
    if minify then (Minifier.minify? css).getD css else css

end GridStyle
