import GridStyle.Config.Reader
import GridStyle.Files.Disk

/-!
# Finding and Loading Settings

Settings are read from a given file, or else from the closest one at or above the working
directory, or else from the one in the user's own directory. Without any file the defaults hold.
-/

namespace GridStyle

/-- The environment of the program: where the user keeps settings. -/
structure Environment where
  /-- The directory of settings. -/
  configHome : Option Path := none
  /-- The user's own directory. -/
  home : Option Path := none

/-- Why settings cannot be loaded. -/
inductive ConfigError where
  /-- The file cannot be read. -/
  | unreadable (error : DiskError)
  /-- The file holds no settings. -/
  | malformed
  /-- The settings make no sense. -/
  | invalid (problems : List Config.Problem)
  deriving DecidableEq, Repr

/-- The message for settings that cannot be loaded. -/
def ConfigError.text : ConfigError → String
  | .unreadable error => "Cannot read " ++ Config.fileName ++ ": " ++ error.text
  | .malformed => "Invalid " ++ Config.fileName ++ ": not a table of settings"
  | .invalid problems =>
    Config.fileName ++ " has " ++ toString problems.length ++ " problem(s):\n" ++
      String.intercalate "\n" (problems.map fun p => "  - " ++ p.text)

namespace Config

/-- The closest settings file at or above a path. -/
def findAbove? (d : Disk) (p : Path) : Option Path :=
  (p.ancestors.map fun dir => dir.join ⟨fileName⟩).find? d.isFile

/-- The settings file of the user. -/
def findOwn? (env : Environment) (d : Disk) : Option Path :=
  let base := env.configHome.or (env.home.map fun home => home.join ⟨".config"⟩)
  (base.map fun dir => (dir.join ⟨"doodlecss"⟩).join ⟨fileName⟩).filter d.isFile

/-- The settings file that counts in the working directory. -/
def find? (env : Environment) (d : Disk) : Option Path :=
  (findAbove? d ⟨"/" ++ String.intercalate "/" d.working⟩).or (findOwn? env d)

/-- Settings without problems. -/
def checked (c : Config) : Except ConfigError Config :=
  if c.problems.isEmpty then .ok c else .error (.invalid c.problems)

/-- Load the settings of a file. -/
def loadFile (d : Disk) (file : Path) : Except ConfigError Config :=
  match d.read file with
  | .error e => .error (.unreadable e)
  | .ok text =>
    match parse text with
    | none => .error .malformed
    | some c => c.checked

/-- Load the settings of a file that is given, or else of the one that counts. -/
def load (env : Environment) (d : Disk) (file : Option Path) : Except ConfigError Config :=
  match file.or (find? env d) with
  | none => .ok {}
  | some file => loadFile d file

end Config

end GridStyle
