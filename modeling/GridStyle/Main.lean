import GridStyle.Command.Run

/-!
# The Program

The outer layer: it loads the part of the file system that a command can look at onto a disk, runs
the command on the disk, prints what it printed, and stores the files that it changed. While
watching, a pass is run whenever the token files have changed, until a fault ends the program.
Stylesheets are not minified here.
-/

namespace GridStyle.Program

open scoped Minifier

/-- Load a file or a directory with everything in it. What cannot be read has no text. -/
partial def loadEntry (path : String) : IO (Option Entry) := do
  try
    let real ← IO.FS.realPath path
    if ← real.isDir then
      let mut entries := #[]
      for found in ← real.readDir do
        if let some e ← loadEntry found.path.toString then
          entries := entries.push (found.fileName, e)
      return some (.directory entries.toList)
    else if ← real.pathExists then
      try
        return some (.file (some (← IO.FS.readFile real)))
      catch _ =>
        return some (.file none)
    else return none
  catch _ => return none

/-- Put an entry onto a disk, with empty directories above it where there are none. -/
def putEntry (root : Entry) (location : List String) (e : Entry) : Entry :=
  let above := (List.range location.length).map location.take
  let root := above.foldl (fun (root : Entry) above =>
    if (root.at? above).isSome then root else root.put (.directory []) above) root
  root.put e location

/-- The location of a path from the working directory, as far as the text tells. -/
def locationOf (working : List String) (p : Path) : List String :=
  let start := if p.isAbsolute then [] else working
  p.pieces.foldl (fun location piece =>
    if Path.isIdle piece then location
    else if piece = ".." then location.dropLast
    else location ++ [piece]) start

/-- The path of a location. -/
def pathOf (location : List String) : String := "/" ++ String.intercalate "/" location

/-- The paths that a request names. -/
def namedPaths : Command.Request → List Path
  | .compile r => r.inputs ++ r.output.toList ++ r.config.toList
  | .watch r => r.dir :: (r.output.toList ++ r.config.toList)
  | .functions => []

/-- The locations that a request can look at: the paths it names with those above them, and the
settings files. -/
def lookedAt (env : Environment) (working : List String) (r : Command.Request) :
    List (List String) :=
  let named := (namedPaths r).map (locationOf working)
  let settings := ((List.range (working.length + 1)).map working.take).map (· ++ [Config.fileName])
  let own := (env.configHome.toList ++ env.home.toList).flatMap fun home =>
    [home.join ⟨"doodlecss/doodle.toml"⟩, home.join ⟨".config/doodlecss/doodle.toml"⟩]
  named ++ settings ++ own.map (locationOf working)

/-- Load the locations that a request can look at. -/
def loadDisk (working : List String) (locations : List (List String)) : IO Disk := do
  let mut root := putEntry (.directory []) working (.directory [])
  for location in locations do
    if (root.at? location).isNone then
      if let some e ← loadEntry (pathOf location) then
        root := putEntry root location e
  return ⟨root, working⟩

/-- Store the files and directories of a disk that another one does not have. -/
partial def store (location : List String) (before : Option Entry) : Entry → IO Unit
  | .file text =>
    match before, text with
    | some (.file (some old)), some new =>
      unless old == new do IO.FS.writeFile (pathOf location) new
    | _, some new => IO.FS.writeFile (pathOf location) new
    | _, none => return
  | .directory entries => do
    if before.isNone then IO.FS.createDirAll (pathOf location)
    for (name, e) in entries do
      store (location ++ [name]) (before.bind fun b => b.child? name) e

/-- The environment of the process. -/
def environment : IO Environment := do
  let configHome ← IO.getEnv "XDG_CONFIG_HOME"
  let home ← IO.getEnv "HOME"
  return ⟨configHome.map Path.mk, home.map Path.mk⟩

/-- Run passes whenever the token files have changed. The exit code is that of a fault. -/
partial def repeatPasses (options : PassOptions) (load : IO Disk) (broken : BrokenFiles)
    (seen : Option (List (Path × Option String))) : IO Nat := do
  let d ← load
  let now := (options.inputs d).map fun input => (input, d.read? input)
  if seen == some now then
    IO.sleep (UInt32.ofNat options.config.debounce)
    repeatPasses options load broken seen
  else
    if options.config.clearScreen then IO.print "\x1b[2J\x1b[1;1H"
    IO.println ("Compiling " ++ options.source.text ++ "...")
    let (after, pass) := options.compileAll d
    store [] (some d.root) after.root
    if let some fault := pass.fault then
      IO.eprintln (Command.Notice.fault fault).text
      return Command.crashed
    let (fixed, broken) := broken.record pass
    for file in fixed do IO.println ("Fixed: " ++ file.text)
    for failure in pass.failures do IO.eprintln failure.text
    IO.println ("Compiled " ++ toString pass.compiled ++ " file(s)")
    IO.println ("Watching " ++ options.source.text ++ " for changes...")
    repeatPasses options load broken (some now)

end GridStyle.Program

open GridStyle GridStyle.Minifier in
/-- Run the command line. -/
def main (arguments : List String) : IO UInt32 := do
  let env ← Program.environment
  let working := Program.locationOf [] ⟨(← IO.currentDir).toString⟩
  let locations := match Command.read arguments with
    | .ok request => Program.lookedAt env working request
    | .error _ => []
  let load := Program.loadDisk working locations
  let before ← load
  let outcome := Command.run env arguments before
  IO.print outcome.output
  IO.eprint outcome.errorText
  Program.store [] (some before.root) outcome.disk.root
  let code ← match outcome.watching with
    | some options => Program.repeatPasses options load {} none
    | none => pure outcome.code
  return UInt32.ofNat code
