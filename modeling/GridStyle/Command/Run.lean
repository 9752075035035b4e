import GridStyle.Command.Arguments
import GridStyle.Pass

/-!
# Commands

What the commands do to a disk and what they print. `compile` refuses a request, or does not
start, before it writes anything; then it compiles every file, whatever becomes of each, unless a
fault ends the program. A single file without an output is printed. `watch` checks its arguments and
leaves the passes to the caller.
-/

namespace GridStyle.Command

/-- A line on the error output. -/
inductive Notice where
  /-- The arguments are refused. -/
  | usage (error : UsageError)
  /-- The grid is not written as one. -/
  | badGrid (text : String)
  /-- The settings cannot be loaded. -/
  | config (error : ConfigError)
  /-- A directory has no token files. -/
  | noTokens (dir : Path)
  /-- An input does not exist. -/
  | missing (input : Path)
  /-- There is nothing to compile. -/
  | nothing
  /-- Several files were to be written into one. -/
  | severalIntoOne
  /-- A file was not compiled. -/
  | failed (input : Path) (error : CompileError)
  /-- How many files were not compiled. -/
  | failures (failed total : Nat)
  /-- A fault ended the program. -/
  | fault (error : WordFault)
  /-- The argument of `watch` is no directory. -/
  | notDirectory (dir : Path)
  /-- The directory cannot be watched. -/
  | watch (error : WatchError)
  deriving DecidableEq, Repr

/-- The text of a notice without the line break. -/
def Notice.text : Notice → String
  | .usage error => "error: " ++ error.text
  | .badGrid text =>
    "Error: Invalid --grid '" ++ text ++ "' (expected e.g. \"5\", \"4x3\" or \"1x1x8\")"
  | .config error => "Error: " ++ error.text
  | .noTokens dir => "Warning: No token files found in " ++ dir.text
  | .missing input => "Error: Input file not found: " ++ input.text
  | .nothing => "Error: Nothing to compile"
  | .severalIntoOne =>
    "Error: --output must be a directory (ending in /) when compiling several files"
  | .failed input error => "Error: " ++ input.text ++ ": " ++ error.text
  | .failures count total => toString count ++ " of " ++ toString total ++ " files failed"
  | .fault error => "Fault: " ++ error.text
  | .notDirectory dir => "Error: Not a directory: " ++ dir.text
  | .watch error => "Watch error: " ++ error.text

/-- The exit code of success. -/
def success : Nat := 0

/-- The exit code of a failure. -/
def failure : Nat := 1

/-- The exit code for arguments that are refused. -/
def refused : Nat := 2

/-- The exit code of a program that a fault ended. -/
def crashed : Nat := 101

/-- What a command did. -/
structure Outcome where
  /-- The disk afterwards. -/
  disk : Disk
  /-- The exit code. -/
  code : Nat := 0
  /-- The text on the output. -/
  output : String := ""
  /-- The lines on the error output. -/
  notices : List Notice := []
  /-- The passes that are to be repeated. -/
  watching : Option PassOptions := none

/-- The lines on the error output as a text. -/
def Outcome.errorText (o : Outcome) : String :=
  String.join (o.notices.map fun notice => notice.text ++ "\n")

/-- The files that inputs stand for, directories by the token files in them, with warnings. There
are none if an input does not exist. -/
def gather (d : Disk) : List Path → List Notice × Option (List Path)
  | [] => ([], some [])
  | input :: rest =>
    if d.isDirectory input then
      let found := findTokenFiles d input
      let (notices, files) := gather d rest
      (if found.isEmpty then .noTokens input :: notices else notices, files.map (found ++ ·))
    else if d.pathExists input then
      let (notices, files) := gather d rest
      (notices, files.map (input :: ·))
    else ([.missing input], none)

/-- The lines about the files that were compiled. -/
def compiledText (results : List FileResult) : String :=
  String.join (results.map fun r =>
    match r.error with
    | none => "Compiled: " ++ r.input.text ++ " -> " ++ r.output.text ++ "\n"
    | some _ => "")

/-- The lines about the files that were not compiled. -/
def failureNotices (results : List FileResult) : List Notice :=
  let failed := results.filterMap fun r => r.error.map fun error => Notice.failed r.input error
  if failed.isEmpty then [] else failed ++ [.failures failed.length results.length]

/-- The outcome of a fault. What would have been printed at the end is not printed. -/
def Outcome.ofFault (d : Disk) (notices : List Notice) (fault : WordFault) : Outcome :=
  { disk := d, code := crashed, notices := notices ++ [.fault fault] }

section Compiling

variable [Minifier]

/-- Print one compiled file. -/
def printFile (config : Config) (input : Path) (notices : List Notice) (d : Disk) : Outcome :=
  match compileFile d config input with
  | .ok text => { disk := d, output := text, notices }
  | .error (.fault error) => .ofFault d notices error
  | .error e => { disk := d, code := failure, notices := notices ++ [.failed input e] }

/-- Compile files into an output. -/
def writeFiles (config : Config) (output : Option Path) (files : List Path)
    (notices : List Notice) (d : Disk) : Outcome :=
  if 1 < files.length && output.any fun o => !namesDirectory d o then
    { disk := d, code := refused, notices := notices ++ [.severalIntoOne] }
  else
    let (d, results) := compileFiles config output files d
    match results.findSome? FileResult.fault? with
    | some fault => .ofFault d notices fault
    | none =>
      let failed := failureNotices results
      { disk := d, code := if failed.isEmpty then success else failure,
        output := compiledText results, notices := notices ++ failed }

end Compiling

/-- The settings of a request over those of a file. -/
def CompileRequest.overrides (r : CompileRequest) : Overrides :=
  { grid := r.grid, seed := r.seed, minify := if r.minify then some true else none,
    format := if r.json then some .json else none }

/-- Compile what is asked for with these settings. -/
def compileWith [Minifier] (config : Config) (r : CompileRequest) (d : Disk) : Outcome :=
  match gather d r.inputs with
  | (notices, none) => { disk := d, code := failure, notices }
  | (notices, some []) => { disk := d, code := failure, notices := notices ++ [.nothing] }
  | (notices, some (first :: files)) =>
    match r.output, r.inputs with
    | none, [input] =>
      -- The files of a directory are not printed, not even a single one.
      if d.isDirectory input then writeFiles config none (first :: files) notices d
      else printFile config first notices d
    | output, _ => writeFiles config output (first :: files) notices d

/-- The command `compile`. -/
def compile [Minifier] (env : Environment) (r : CompileRequest) (d : Disk) : Outcome :=
  match r.grid.filter fun grid => !isGridText grid with
  | some grid => { disk := d, code := refused, notices := [.badGrid grid] }
  | none =>
    match Config.load env d r.config with
    | .error e => { disk := d, code := failure, notices := [.config e] }
    | .ok config => compileWith (config.override r.overrides) r d

/-- What `watch` prints before the first pass. -/
def watchGreeting : String := "Starting watch mode...\nPress Ctrl+C to stop\n\n"

/-- The command `watch` up to the first pass. -/
def watch (env : Environment) (r : WatchRequest) (d : Disk) : Outcome :=
  if !d.isDirectory r.dir then { disk := d, code := refused, notices := [.notDirectory r.dir] }
  else
    match Config.load env d r.config with
    | .error e => { disk := d, code := failure, notices := [.config e] }
    | .ok config =>
      let options : PassOptions := ⟨r.dir, r.output, config⟩
      match options.prepare d with
      | .error e =>
        { disk := d, code := failure, output := watchGreeting, notices := [.watch e] }
      | .ok d => { disk := d, output := watchGreeting, watching := some options }

/-- A heading and names under it. -/
def listing (heading : String) (names : List String) : String :=
  heading ++ " functions:\n" ++ String.join (names.map fun name => "  @" ++ name ++ "\n")

/-- What the command `functions` prints. -/
def functionsText : String :=
  String.intercalate "\n"
    [listing "Custom" FunctionRegistry.builtin.custom.names,
      listing "Math" FunctionRegistry.builtin.math.names,
      listing "Selector" (Named.names Predicates.builtin)]

/-- The program and its version. -/
def versionText : String := "doodlecss 0.1.0\n"

/-- How the program is used. -/
def helpText : String :=
  "doodlecss - Compile doodle token trees (.json, .json5) into grid CSS\n\n" ++
    "Usage: doodlecss [-v] compile INPUTS... [-o OUTPUT] [--grid GRID] [--seed SEED]\n" ++
    "                 [--minify] [--json] [--config CONFIG]\n" ++
    "       doodlecss [-v] watch DIR [-o OUTPUT] [--config CONFIG]\n" ++
    "       doodlecss [-v] functions\n"

/-- Run the program with arguments. -/
def run [Minifier] (env : Environment) (arguments : List String) (d : Disk) : Outcome :=
  match read arguments with
  | .error .help => { disk := d, output := helpText }
  | .error .version => { disk := d, output := versionText }
  | .error (.usage error) => { disk := d, code := refused, notices := [.usage error] }
  | .ok (.compile request) => compile env request d
  | .ok (.watch request) => watch env request d
  | .ok .functions => { disk := d, output := functionsText }

end GridStyle.Command
