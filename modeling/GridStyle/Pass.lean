import GridStyle.Compile

/-!
# Compilation Passes

A pass compiles all token files of a directory, whatever becomes of each, unless a fault ends the
program. Files in the output directory are left out, so that no pass takes up the results of
another. From pass to pass `BrokenFiles` remembers what failed, and so tells what was mended.
-/

namespace GridStyle

/-- What a pass compiles. -/
structure PassOptions where
  /-- The directory of token files. -/
  source : Path := ⟨"."⟩
  /-- The output directory; without one results are written next to the inputs. -/
  output : Option Path := none
  /-- The settings. -/
  config : Config := {}

/-- A file that was not compiled. -/
structure FileFailure where
  /-- The file. -/
  file : Path
  /-- What went wrong. -/
  error : CompileError
  deriving DecidableEq, Repr

/-- The message for a file that was not compiled. -/
def FileFailure.text (f : FileFailure) : String :=
  "Error in " ++ f.file.text ++ ": " ++ f.error.text

/-- The result of a pass. -/
structure Pass where
  /-- How many files were compiled. -/
  compiled : Nat := 0
  /-- The files that were not. -/
  failures : List FileFailure := []
  /-- The fault that ended the program, so that there is no report. -/
  fault : Option WordFault := none
  deriving DecidableEq, Repr

/-- The failure of a file after which the program goes on. -/
def FileResult.failure? (r : FileResult) : Option FileFailure :=
  if r.fault?.isSome then none else r.error.map fun error => ⟨r.input, error⟩

namespace Pass

/-- The pass with these results. -/
def ofResults (results : List FileResult) : Pass where
  compiled := results.countP (·.error.isNone)
  failures := results.filterMap FileResult.failure?
  fault := results.findSome? FileResult.fault?

/-- Every file was compiled. -/
def isClean (p : Pass) : Bool := p.failures.isEmpty

end Pass

namespace PassOptions

/-- The token files to compile. -/
def inputs (o : PassOptions) (d : Disk) : List Path :=
  (findTokenFiles d o.source).filter fun input => !o.output.any input.startsWith

/-- Compile files one after the other. -/
def compileEach [Minifier] (o : PassOptions) (inputs : List Path) (d : Disk) : Disk × Pass :=
  -- The output of a pass is a directory even before there is one.
  let (d, results) := compileFiles o.config (o.output.map Path.asDirectory) inputs d
  (d, .ofResults results)

/-- Compile all token files of the source directory. -/
def compileAll [Minifier] (o : PassOptions) (d : Disk) : Disk × Pass :=
  o.compileEach (o.inputs d) d

end PassOptions

/-- Paths in order, each once. -/
def distinctPaths (paths : List Path) : List Path :=
  (paths.foldr (fun p rest => if rest.any p.same then rest else p :: rest) []).mergeSort
    Path.atMost

/-- The files that failed in the latest pass. -/
structure BrokenFiles where
  /-- The files in order. -/
  files : List Path := []

namespace BrokenFiles

/-- Record a pass. The files that it mended come with what is broken now. -/
def record (b : BrokenFiles) (p : Pass) : List Path × BrokenFiles :=
  let now := distinctPaths (p.failures.map (·.file))
  (b.files.filter fun file => !now.any file.same, ⟨now⟩)

/-- The number of broken files. -/
def size (b : BrokenFiles) : Nat := b.files.length

/-- No file is broken. -/
def isEmpty (b : BrokenFiles) : Bool := b.files.isEmpty

end BrokenFiles

/-- Why a directory cannot be watched. -/
inductive WatchError where
  /-- There is no such directory. -/
  | missing (dir : Path)
  deriving DecidableEq, Repr

/-- The message for a directory that cannot be watched. -/
def WatchError.text : WatchError → String
  | .missing dir => "Source directory not found: " ++ dir.text

/-- Get ready to watch: the source has to exist, and the output directory is made. -/
def PassOptions.prepare (o : PassOptions) (d : Disk) : Except WatchError Disk :=
  if !d.pathExists o.source then .error (.missing o.source)
  else
    match o.output with
    | none => .ok d
    -- If it cannot be made, the files of the first pass fail.
    | some output => .ok (d.makeDirectories output).1

end GridStyle
