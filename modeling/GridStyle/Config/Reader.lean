import GridStyle.Config.Basic
import GridStyle.Toml.Text

/-!
# Reading Settings

A settings file is a TOML document with the sections `grid`, `random`, `output` and `watch`. All
sections and settings are optional, and unknown ones are ignored. A section may also be written
as a list of its settings in order, and a moment in its place counts as an empty section.
-/

namespace GridStyle.Config

open Toml (Value Entries)

/-- The settings of a section by name: none if the value is no section. -/
def section? (names : List String) : Option Value → Option Entries
  | none | some (.moment _) => some []
  | some (.table _ entries) => some entries
  | some (.array items) => some (names.zip items)
  -- Repeated tables are kept with the latest one first.
  | some (.tables items) => some (names.zip (items.reverse.map (.table .header)))
  | some _ => none

/-- Read a setting if it is there. -/
def setting {α : Type} (read : Value → Option α) (entries : Entries) (name : String)
    (default : α) : Option α :=
  match entries.lookup name with
  | none => some default
  | some value => read value

/-- A string. -/
def text? : Value → Option String
  | .text value => some value
  | _ => none

/-- A truth value. -/
def bool? : Value → Option Bool
  | .bool value => some value
  | _ => none

/-- A whole number below a bound that is not negative. -/
def natural? (bound : Nat) : Value → Option Nat
  | .whole (.ofNat n) => if n < bound then some n else none
  | _ => none

/-- The value holds nothing. -/
def isNothing : Value → Bool
  | .array items => items.isEmpty
  | .table _ entries => entries.isEmpty
  | _ => false

/-- A format: its name, or a table with nothing under its name. -/
def format? : Value → Option OutputFormat
  | .text name => OutputFormat.ofName? name
  | .table _ [(name, value)] => if isNothing value then OutputFormat.ofName? name else none
  | _ => none

/-- Read settings from the table of a document. -/
def ofEntries (document : Entries) : Option Config := do
  let default : Config := {}
  let grid ← section? ["default"] (document.lookup "grid")
  let random ← section? ["seed"] (document.lookup "random")
  let output ← section? ["minify", "format"] (document.lookup "output")
  let watch ← section? ["debounce_ms", "clear_screen"] (document.lookup "watch")
  return {
    grid := ← setting text? grid "default" default.grid
    seed := ← setting (fun v => (natural? (Nat.pow 2 64) v).map UInt64.ofNat) random "seed"
      default.seed
    minify := ← setting bool? output "minify" default.minify
    format := ← setting format? output "format" default.format
    debounce := ← setting (natural? (Nat.pow 2 32)) watch "debounce_ms" default.debounce
    clearScreen := ← setting bool? watch "clear_screen" default.clearScreen }

/-- Read settings from a text. -/
def parse (text : String) : Option Config := (Toml.parse text).bind ofEntries

end GridStyle.Config
