import GridStyle.Grid.Text
import GridStyle.Random
import GridStyle.Stylesheet.Render

/-!
# Settings

The settings of a compilation, their defaults, what can be wrong with them, and the overrides that
the command line lays over those of a file.
-/

namespace GridStyle

/-- The settings. -/
structure Config where
  /-- The grid for trees that declare none, as it was written. -/
  grid : String := "1x1"
  /-- The seed of the random functions. -/
  seed : UInt64 := defaultSeed
  /-- Leave out what a stylesheet does not need. -/
  minify : Bool := false
  /-- How results are written. -/
  format : OutputFormat := .css
  /-- How long to wait for more changes while watching, in milliseconds. -/
  debounce : Nat := 100
  /-- Clear the screen between passes while watching. -/
  clearScreen : Bool := true
  deriving DecidableEq, Repr

namespace Config

/-- The name of the settings file. -/
def fileName : String := "doodle.toml"

/-- Something wrong with the settings. -/
inductive Problem where
  /-- The grid is not written as one. -/
  | grid (text : String)
  /-- There is no time to wait. -/
  | debounce
  deriving DecidableEq, Repr

/-- A problem in words. -/
def Problem.text : Problem → String
  | .grid text =>
    fileName ++ ": 'grid.default' must look like \"5\", \"4x3\" or \"1x1x8\", got \"" ++
      text ++ "\""
  | .debounce => fileName ++ ": 'watch.debounce_ms' must be a positive integer"

/-- Everything that is wrong with the settings. -/
def problems (c : Config) : List Problem :=
  (if isGridText c.grid then [] else [.grid c.grid]) ++
    (if c.debounce = 0 then [.debounce] else [])

/-- The grid for trees that declare none. -/
def defaultGrid (c : Config) : GridSize := GridSize.ofText c.grid

end Config

/-- Settings of the command line, which count more than those of a file. -/
structure Overrides where
  /-- The grid. -/
  grid : Option String := none
  /-- The seed. -/
  seed : Option UInt64 := none
  /-- Whether to minify. -/
  minify : Option Bool := none
  /-- The format. -/
  format : Option OutputFormat := none
  deriving DecidableEq, Repr

/-- Lay overrides over settings. -/
def Config.override (c : Config) (o : Overrides) : Config :=
  { c with
    grid := o.grid.getD c.grid
    seed := o.seed.getD c.seed
    minify := o.minify.getD c.minify
    format := o.format.getD c.format }

end GridStyle
