import GridStyle.Decimal.Integer
import GridStyle.Files.Path

/-!
# Command Line Arguments

Arguments are read from left to right. A long switch is `--name`, a short one `-n`, and short
ones may share a dash. A switch with a value takes what is attached to it, after an equals sign or
in a short one at once, or else the next argument, unless that looks like a switch. After `--`
everything is a plain argument.

The first plain argument names the command, and each command has switches of its own.

These are the conventions that the package `clap` 4 documents for its parsers, and the names of the
switches are those that it derives from the fields of the commands.
-/

namespace GridStyle.Command

/-- A switch. -/
structure Switch where
  /-- The long name. -/
  long : String
  /-- The short name. -/
  short : Option Char := none
  /-- The switch takes a value. -/
  takesValue : Bool := true
  /-- The switch may be given again. -/
  repeatable : Bool := false
  deriving DecidableEq, Repr

/-- Why the arguments are refused. -/
inductive UsageError where
  /-- No command is named. -/
  | noCommand
  /-- There is no such command. -/
  | unknownCommand (name : String)
  /-- There is no such switch. -/
  | unknownSwitch (name : String)
  /-- A switch has no value. -/
  | missingValue (name : String)
  /-- A switch that takes no value has one. -/
  | needlessValue (name : String)
  /-- A switch is given twice. -/
  | repeated (name : String)
  /-- A value does not fit. -/
  | badValue (name value : String)
  /-- A plain argument is missing. -/
  | missingArgument (name : String)
  /-- There is a plain argument too many. -/
  | needlessArgument (argument : String)
  deriving DecidableEq, Repr

/-- The message for arguments that are refused. -/
def UsageError.text : UsageError → String
  | .noCommand => "a command is required"
  | .unknownCommand name => "unrecognized command '" ++ name ++ "'"
  | .unknownSwitch name => "unexpected argument '" ++ name ++ "'"
  | .missingValue name => "a value is required for '--" ++ name ++ "'"
  | .needlessValue name => "unexpected value for '--" ++ name ++ "'"
  | .repeated name => "the argument '--" ++ name ++ "' cannot be used multiple times"
  | .badValue name value => "invalid value '" ++ value ++ "' for '" ++ name ++ "'"
  | .missingArgument name => "the argument " ++ name ++ " is required"
  | .needlessArgument argument => "unexpected argument '" ++ argument ++ "'"

/-- What stops the reading of arguments. -/
inductive Stop where
  /-- The arguments are refused. -/
  | usage (error : UsageError)
  /-- Help is asked for. -/
  | help
  /-- The version is asked for. -/
  | version
  deriving DecidableEq, Repr

/-- Arguments sorted out. -/
structure Sorted where
  /-- The switches that were given, with their values, latest first. -/
  given : List (String × String) := []
  /-- The plain arguments, latest first. -/
  plain : List String := []
  deriving Repr

namespace Sorted

/-- The value of a switch. -/
def value? (s : Sorted) (long : String) : Option String := s.given.lookup long

/-- A switch was given. -/
def has (s : Sorted) (long : String) : Bool := (s.value? long).isSome

/-- Add a switch, which may have to be the first of its name. -/
def add (s : Sorted) (switch : Switch) (value : String) : Except Stop Sorted :=
  if switch.long = "help" then .error .help
  else if switch.long = "version" then .error .version
  else if s.has switch.long && !switch.repeatable then .error (.usage (.repeated switch.long))
  else .ok { s with given := (switch.long, value) :: s.given }

end Sorted

/-- The argument looks like a switch. A dash alone does not. -/
def looksLikeSwitch (argument : String) : Bool :=
  match argument.toList with
  | '-' :: _ :: _ => true
  | _ => false

/-- Read the short switches of one argument. A switch whose value is still to come is given
back. -/
def readCluster (switches : List Switch) (s : Sorted) :
    List Char → Except Stop (Sorted × Option Switch)
  | [] => .ok (s, none)
  | c :: rest =>
    match switches.find? fun switch => switch.short == some c with
    | none => .error (.usage (.unknownSwitch ("-" ++ c.toString)))
    | some switch =>
      if switch.takesValue then
        match rest with
        | [] => .ok (s, some switch)
        | '=' :: value => (s.add switch (String.ofList value)).map (·, none)
        | value => (s.add switch (String.ofList value)).map (·, none)
      else
        match s.add switch "" with
        | .error stop => .error stop
        | .ok s => readCluster switches s rest

/-- Read a long switch without its dashes. A switch whose value is still to come is given
back. -/
def readLong (switches : List Switch) (s : Sorted) (cs : List Char) :
    Except Stop (Sorted × Option Switch) :=
  let name := String.ofList (cs.takeWhile (· != '='))
  match switches.find? fun switch => switch.long == name, cs.dropWhile (· != '=') with
  | none, _ => .error (.usage (.unknownSwitch ("--" ++ name)))
  | some switch, [] =>
    if switch.takesValue then .ok (s, some switch) else (s.add switch "").map (·, none)
  | some switch, _ :: value =>
    if switch.takesValue then (s.add switch (String.ofList value)).map (·, none)
    else .error (.usage (.needlessValue name))

/-- Sort out arguments. With `pending` the next one is the value of a switch. Reading stops in
front of the plain argument that `stops` accepts, and what is left comes back. -/
def sortFrom (switches : List Switch) (stops : String → Bool) (s : Sorted) :
    Option Switch → List String → Except Stop (Sorted × List String)
  | none, [] => .ok (s, [])
  | some switch, [] => .error (.usage (.missingValue switch.long))
  | some switch, argument :: rest =>
    if looksLikeSwitch argument then .error (.usage (.missingValue switch.long))
    else
      match s.add switch argument with
      | .error stop => .error stop
      | .ok s => sortFrom switches stops s none rest
  | none, argument :: rest =>
    match argument.toList with
    -- Behind a double dash everything is plain.
    | ['-', '-'] => .ok ({ s with plain := rest.reverse ++ s.plain }, [])
    | '-' :: '-' :: cs =>
      match readLong switches s cs with
      | .error stop => .error stop
      | .ok (s, pending) => sortFrom switches stops s pending rest
    | '-' :: c :: cs =>
      match readCluster switches s (c :: cs) with
      | .error stop => .error stop
      | .ok (s, pending) => sortFrom switches stops s pending rest
    | _ =>
      if stops argument then .ok (s, argument :: rest)
      else sortFrom switches stops { s with plain := argument :: s.plain } none rest

/-- The switches that every command knows. -/
def commonSwitches : List Switch :=
  [⟨"verbose", some 'v', false, true⟩, ⟨"help", some 'h', false, false⟩]

/-- The switches in front of the command. -/
def mainSwitches : List Switch := ⟨"version", some 'V', false, false⟩ :: commonSwitches

/-- The switches of `compile`. -/
def compileSwitches : List Switch :=
  [{ long := "output", short := some 'o' }, { long := "grid" }, { long := "seed" },
    { long := "minify", takesValue := false }, { long := "json", takesValue := false },
    { long := "config" }] ++ commonSwitches

/-- The switches of `watch`. -/
def watchSwitches : List Switch :=
  [{ long := "output", short := some 'o' }, { long := "config" }] ++ commonSwitches

/-- What `compile` is asked to do. -/
structure CompileRequest where
  /-- Files, and directories of files. -/
  inputs : List Path
  /-- Where to write. -/
  output : Option Path := none
  /-- The grid for trees that declare none, as it was written. -/
  grid : Option String := none
  /-- The seed. -/
  seed : Option UInt64 := none
  /-- Leave out what a stylesheet does not need. -/
  minify : Bool := false
  /-- Write JSON. -/
  json : Bool := false
  /-- The settings file. -/
  config : Option Path := none
  deriving Repr

/-- What `watch` is asked to do. -/
structure WatchRequest where
  /-- The directory of token files. -/
  dir : Path
  /-- The output directory. -/
  output : Option Path := none
  /-- The settings file. -/
  config : Option Path := none
  deriving Repr

/-- What the program is asked to do. -/
inductive Request where
  /-- Compile files. -/
  | compile (request : CompileRequest)
  /-- Compile a directory whenever it changes. -/
  | watch (request : WatchRequest)
  /-- List the functions. -/
  | functions
  deriving Repr

/-- A path, which is not empty. -/
def asPath (name value : String) : Except Stop Path :=
  if value.isEmpty then .error (.usage (.missingValue name)) else .ok ⟨value⟩

/-- The path given with a switch. -/
def pathOf (s : Sorted) (long : String) : Except Stop (Option Path) :=
  match s.value? long with
  | none => .ok none
  | some value => (asPath long value).map some

/-- The seed given with its switch. -/
def seedOf (s : Sorted) : Except Stop (Option UInt64) :=
  match s.value? "seed" with
  | none => .ok none
  | some value =>
    match Decimal.readNat64 value with
    | some n => .ok (some (UInt64.ofNat n))
    | none => .error (.usage (.badValue "seed" value))

/-- Read the arguments of `compile`. -/
def readCompile (arguments : List String) : Except Stop Request := do
  let (s, _) ← sortFrom compileSwitches (fun _ => false) {} none arguments
  let inputs ← s.plain.reverse.mapM (asPath "inputs")
  if inputs.isEmpty then throw (.usage (.missingArgument "INPUTS"))
  let output ← pathOf s "output"
  let seed ← seedOf s
  let config ← pathOf s "config"
  return .compile
    { inputs, output, grid := s.value? "grid", seed, minify := s.has "minify",
      json := s.has "json", config }

/-- Read the arguments of `watch`. -/
def readWatch (arguments : List String) : Except Stop Request := do
  let (s, _) ← sortFrom watchSwitches (fun _ => false) {} none arguments
  let output ← pathOf s "output"
  let config ← pathOf s "config"
  match s.plain.reverse with
  | [] => throw (.usage (.missingArgument "DIR"))
  | [dir] => return .watch { dir := ← asPath "dir" dir, output, config }
  | _ :: extra :: _ => throw (.usage (.needlessArgument extra))

/-- Read the arguments of `functions`. -/
def readFunctions (arguments : List String) : Except Stop Request := do
  let (s, _) ← sortFrom commonSwitches (fun _ => false) {} none arguments
  match s.plain.reverse with
  | [] => return .functions
  | extra :: _ => throw (.usage (.needlessArgument extra))

/-- The commands that `help` can be asked about. -/
def commandNames : List String := ["compile", "watch", "functions", "help"]

/-- Read the arguments of the program. -/
def read (arguments : List String) : Except Stop Request := do
  let (s, rest) ← sortFrom mainSwitches (fun _ => true) {} none arguments
  match rest with
  | "compile" :: rest => readCompile rest
  | "watch" :: rest => readWatch rest
  | "functions" :: rest => readFunctions rest
  | "help" :: rest =>
    match rest with
    | [] => throw .help
    | name :: _ =>
      throw (if commandNames.contains name then .help else .usage (.unknownCommand name))
  | name :: _ => throw (.usage (.unknownCommand name))
  | [] =>
    match s.plain.reverse with
    | [] => throw (.usage .noCommand)
    | extra :: _ => throw (.usage (.needlessArgument extra))

end GridStyle.Command
