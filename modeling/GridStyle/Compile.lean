import GridStyle.Config.Load
import GridStyle.Files.Glob
import GridStyle.Generate
import GridStyle.Token.Reader

/-!
# Compiling Files

Token files are found below a directory, compiled with the settings, and written where the output
is asked for: into a given file, into a given directory, or next to the input. A file is never
compiled onto the path that it was read from.

Several files are compiled one after the other, whatever becomes of each, as long as the program
goes on. A fault ends it.
-/

namespace GridStyle

/-- Why a file is not compiled. -/
inductive CompileError where
  /-- The file cannot be read. -/
  | unreadable (error : DiskError)
  /-- The file holds no token tree. -/
  | tokens (error : ReadError)
  /-- A function failed. -/
  | function (error : FunctionError)
  /-- A fault ended the program. -/
  | fault (error : WordFault)
  /-- The result cannot be written. -/
  | unwritable (error : DiskError)
  /-- The result would replace the input. -/
  | overwrite (input : Path)
  deriving DecidableEq, Repr

namespace CompileError

/-- The message for a file that is not compiled. -/
def text : CompileError → String
  | unreadable error => error.text
  | tokens error => error.text
  | function error => error.text
  | fault error => error.text
  | unwritable error => "IO error: " ++ error.text
  | overwrite input => "output would overwrite input " ++ input.text

/-- The fault that ended the program. -/
def fault? : CompileError → Option WordFault
  | fault error => some error
  | _ => none

/-- The error of a generation that failed. -/
def ofFailure : Failure → CompileError
  | .function error => function error
  | .fault error => fault error

end CompileError

/-- How the names of JSON results end. -/
def resultSuffix : String := ".out.json"

/-- The extensions of token files. -/
def tokenExtensions : List String := ["json", "json5"]

/-- The name of a path is that of a token file, and not that of a result. -/
def isTokenFile (p : Path) : Bool :=
  let isResult := p.fileName?.any fun name => resultSuffix.toList.isSuffixOf name.toList
  !isResult && p.extension?.any fun extension => tokenExtensions.contains extension

/-- The token files below a directory, in order. -/
def findTokenFiles (d : Disk) (dir : Path) : List Path :=
  let found := tokenExtensions.flatMap fun extension =>
    Glob.find d ⟨dir.text ++ "/**/*." ++ extension⟩
  (found.filter isTokenFile).mergeSort Path.atMost

/-- The output names a directory: it ends with a slash, or there is one. -/
def namesDirectory (d : Disk) (output : Path) : Bool :=
  output.endsWithSlash || d.isDirectory output

/-- The name of a result: the stem of the input with the extension of the format. -/
def resultName (input : Path) (extension : String) : Path :=
  ⟨input.stem?.getD "output" ++ "." ++ extension⟩

/-- Where the result of an input is written. -/
def outputPath (d : Disk) (input : Path) (output : Option Path) (extension : String) : Path :=
  match output with
  | some output =>
    if namesDirectory d output then output.join (resultName input extension) else output
  | none =>
    match input.parent? with
    | some dir => dir.join (resultName input extension)
    | none => resultName input extension

section Compiling

variable [Minifier]

/-- Compile a token tree. A grid that the tree declares counts more than that of the settings. -/
def compileText (config : Config) (source : String) : Except CompileError String :=
  match TokenDocument.parse source with
  | .error e => .error (.tokens e)
  | .ok document =>
    let grid := document.grid.getD config.defaultGrid
    match generate Toolkit.builtin config.seed document.tokens grid with
    | .error e => .error (.ofFailure e)
    | .ok result => .ok (result.render config.format config.minify)

/-- Compile a token file. -/
def compileFile (d : Disk) (config : Config) (input : Path) : Except CompileError String :=
  match d.read input with
  | .error e => .error (.unreadable e)
  | .ok source => compileText config source

/-- Compile a token file into another file: the disk afterwards and what went wrong. -/
def compileTo (config : Config) (input output : Path) (d : Disk) : Disk × Option CompileError :=
  if output.same input then (d, some (.overwrite input))
  else
    match compileFile d config input with
    | .error e => (d, some e)
    | .ok text =>
      let (d, error) := d.save output text
      (d, error.map .unwritable)

/-- The result of compiling one of several files. -/
structure FileResult where
  /-- The input. -/
  input : Path
  /-- The output. -/
  output : Path
  /-- What went wrong. -/
  error : Option CompileError

/-- The fault that ended the program at this file. -/
def FileResult.fault? (r : FileResult) : Option WordFault := r.error.bind CompileError.fault?

/-- Compile files one after the other, each into its output, as long as the program goes on. -/
def compileFiles (config : Config) (output : Option Path) :
    List Path → Disk → Disk × List FileResult
  | [], d => (d, [])
  | input :: rest, d =>
    let target := outputPath d input output config.format.extension
    let (d, error) := compileTo config input target d
    let result : FileResult := ⟨input, target, error⟩
    if result.fault?.isSome then (d, [result])
    else
      let (d, results) := compileFiles config output rest d
      (d, result :: results)

end Compiling

end GridStyle
