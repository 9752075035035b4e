import GridStyle.Files.Path

/-!
# Disks

A disk is a tree of directories and files with a working directory. Paths are looked up piece by
piece: every piece before the last has to name a directory, and so has the last if a slash or a
point follows it. A double point leads to the directory above.

What can be named has limits: a path holds no NUL and at most 4095 bytes, and the name of an entry
has at most 255 bytes.

What does not succeed has a reason, a `DiskError`, with the message that a Unix system has for it.
Operations that can fail give no disk. Saving a file may make directories before it fails, so it
always gives a disk, and a reason if the file was not written.

## Main definitions

* `Entry`: a file or a directory, with `Entry.at?`, `Entry.put` and `Entry.remove` at a location
  below it.
* `Disk`: a directory at the root and the location of the working directory.
* `Disk.locate`: the location that a path leads to; `Disk.locate?` leaves out the reason.
* `Disk.save`: writing a file and making the directories above it.
-/

namespace GridStyle

/-- The name of an entry has at most this many bytes. -/
def nameLimit : Nat := 255

/-- A path has at most this many bytes. -/
def pathLimit : Nat := 4095

/-- Why a disk does not do what it is asked for. -/
inductive DiskError where
  /-- Nothing is there. -/
  | missing
  /-- A directory is needed, and something else is there. -/
  | notDirectory
  /-- A file is needed, and a directory is there. -/
  | isDirectory
  /-- A new directory has the name of something else. -/
  | alreadyExists
  /-- A name or a path is too long. -/
  | tooLong
  /-- A path holds a NUL. -/
  | badPath
  /-- The bytes of a file are no text. -/
  | notText
  deriving DecidableEq, Repr

/-- The message of the system. -/
def DiskError.text : DiskError → String
  | missing => "No such file or directory (os error 2)"
  | notDirectory => "Not a directory (os error 20)"
  | isDirectory => "Is a directory (os error 21)"
  | alreadyExists => "File exists (os error 17)"
  | tooLong => "File name too long (os error 36)"
  | badPath => "file name contained an unexpected NUL byte"
  | notText => "stream did not contain valid UTF-8"

namespace Path

/-- A path that a disk takes: it has no NUL and is not too long. -/
def isUsable (p : Path) : Bool :=
  !p.text.toList.contains '\x00' && p.text.utf8ByteSize ≤ pathLimit

/-- Why a disk does not take a path. -/
def refusal (p : Path) : DiskError :=
  if p.text.toList.contains '\x00' then .badPath else .tooLong

end Path

/-- A file or a directory. -/
inductive Entry where
  /-- A file with its text, or without one if its bytes are not text. -/
  | file (text : Option String)
  /-- A directory and what it holds, by name. -/
  | directory (entries : List (String × Entry))

namespace Entry

/-- What a directory holds. -/
def entries : Entry → List (String × Entry)
  | .file _ => []
  | .directory entries => entries

/-- A directory. -/
def isDirectory : Entry → Bool
  | .file _ => false
  | .directory _ => true

/-- The entry with a name in a directory. -/
def child? (e : Entry) (name : String) : Option Entry := e.entries.lookup name

/-- The entry at a location below. -/
def at? (e : Entry) : List String → Option Entry
  | [] => some e
  | name :: rest => (e.child? name).bind fun child => child.at? rest

/-- The entries of a directory with one put in under a name, in place of any it had. -/
def place (name : String) (new : Entry) : List (String × Entry) → List (String × Entry)
  | [] => [(name, new)]
  | (other, e) :: rest =>
    if other = name then (name, new) :: rest else (other, e) :: place name new rest

/-- Put an entry at a location below. Nothing changes if a directory on the way is missing. -/
def put (e : Entry) (new : Entry) : List String → Entry
  | [] => new
  | name :: rest =>
    match e with
    | .file text => .file text
    | .directory entries =>
      match rest with
      | [] => .directory (place name new entries)
      | _ :: _ =>
        match entries.lookup name with
        | none => .directory entries
        | some child => .directory (place name (child.put new rest) entries)

/-- Remove the entry at a location below. -/
def remove (e : Entry) : List String → Entry
  | [] => e
  | [name] => match e with
    | .file text => .file text
    | .directory entries => .directory (entries.filter fun x => x.1 != name)
  | name :: rest => match e with
    | .file text => .file text
    | .directory entries =>
      match entries.lookup name with
      | none => .directory entries
      | some child => .directory (place name (child.remove rest) entries)

mutual

/-- The locations of all files. -/
def files : Entry → List (List String)
  | .file _ => [[]]
  | .directory entries => filesOf entries

/-- The locations of all files among named entries. -/
def filesOf : List (String × Entry) → List (List String)
  | [] => []
  | (name, e) :: rest => e.files.map (name :: ·) ++ filesOf rest

end

end Entry

/-- A tree of files with a working directory. -/
structure Disk where
  /-- The directory at the root. -/
  root : Entry := .directory []
  /-- The location of the working directory. -/
  working : List String := []

namespace Disk

/-- A directory is at a location. -/
def isDirectoryAt (d : Disk) (location : List String) : Bool :=
  (d.root.at? location).any Entry.isDirectory

/-- Something is at a location. -/
def existsAt (d : Disk) (location : List String) : Bool := (d.root.at? location).isSome

/-- Why nothing is at a location: no entry can have its name, or none has it. -/
def absence (location : List String) : DiskError :=
  if location.getLast?.any fun name => nameLimit < name.utf8ByteSize then .tooLong else .missing

/-- Where the pieces of a path lead from a location. Something has to be there. -/
def route (d : Disk) (location : List String) : List String → Except DiskError (List String)
  | [] => if d.existsAt location then .ok location else .error (absence location)
  | piece :: rest =>
    if !d.isDirectoryAt location then
      .error (if d.existsAt location then .notDirectory else absence location)
    else if Path.isIdle piece then d.route location rest
    else if piece = ".." then d.route location.dropLast rest
    else d.route (location ++ [piece]) rest

/-- Where a path starts. -/
def start (d : Disk) (p : Path) : List String := if p.isAbsolute then [] else d.working

/-- The location of what a path names. The empty path names nothing. -/
def locate (d : Disk) (p : Path) : Except DiskError (List String) :=
  if p.isEmpty then .error .missing
  else if p.isUsable then d.route (d.start p) p.pieces
  else .error p.refusal

/-- The location of what a path names, if it names something. -/
def locate? (d : Disk) (p : Path) : Option (List String) := (d.locate p).toOption

/-- What a path names. -/
def entry? (d : Disk) (p : Path) : Option Entry := (d.locate? p).bind d.root.at?

/-- A path names something. -/
def pathExists (d : Disk) (p : Path) : Bool := (d.entry? p).isSome

/-- A path names a directory. -/
def isDirectory (d : Disk) (p : Path) : Bool := (d.entry? p).any Entry.isDirectory

/-- A path names a file. -/
def isFile (d : Disk) (p : Path) : Bool := (d.entry? p).any fun e => !e.isDirectory

/-- The text of the file that a path names. -/
def read (d : Disk) (p : Path) : Except DiskError String := do
  let location ← d.locate p
  match d.root.at? location with
  | some (.file (some text)) => return text
  | some (.file none) => .error .notText
  | some (.directory _) => .error .isDirectory
  | none => .error .missing

/-- The text of a file, if a path names one and it has a text. -/
def read? (d : Disk) (p : Path) : Option String := (d.read p).toOption

/-- The location that a path names for a file to be written: the name at its end in an existing
directory, and no directory there. -/
def target (d : Disk) (p : Path) : Except DiskError (List String) :=
  if p.isEmpty then .error .missing
  else if !p.isUsable then .error p.refusal
  else
    match p.pieces.reverse.dropWhile (· == "") with
    | [] => .error .isDirectory
    | last :: before => do
      let location ← d.route (d.start p) before.reverse
      let target := location ++ [last]
      if !d.isDirectoryAt location then .error .notDirectory
      -- A slash, a point or a double point at the end names a directory, never a file.
      else if p.endsWithSlash || last == "." || last == ".." then .error .isDirectory
      else if nameLimit < last.utf8ByteSize then .error .tooLong
      else if d.isDirectoryAt target then .error .isDirectory
      else return target

/-- Write a text to a file, which is made if there is none. -/
def write (d : Disk) (p : Path) (text : String) : Except DiskError Disk :=
  (d.target p).map fun target => { d with root := d.root.put (.file (some text)) target }

/-- Why no directory is made where something else is. The last directory is tried first, so what is
there is no directory on the way, unless it is the last itself. Once a directory was `made` in
front, every one is tried under its own path. -/
def obstacle (made : Bool) (rest : List String) : DiskError :=
  if rest.all (· == "") || made && rest.any (!Path.isIdle ·) then .alreadyExists
  else .notDirectory

/-- Make the directories that the pieces of a path name, one after the other; `made` tells whether
one was made already. Directories made before a failure stay. -/
def makeAlong (d : Disk) (made : Bool) (location : List String) :
    List String → Disk × Option DiskError
  | [] => (d, none)
  | piece :: rest =>
    if Path.isIdle piece then d.makeAlong made location rest
    else if piece = ".." then d.makeAlong made location.dropLast rest
    else
      let next := location ++ [piece]
      if d.isDirectoryAt next then d.makeAlong made next rest
      else if d.existsAt next then (d, some (obstacle made rest))
      else if nameLimit < piece.utf8ByteSize then (d, some .tooLong)
      else makeAlong { d with root := d.root.put (.directory []) next } true next rest

/-- Make a directory and those above it. Nothing is made for a path that no disk takes. -/
def makeDirectories (d : Disk) (p : Path) : Disk × Option DiskError :=
  if p.isUsable then d.makeAlong false (d.start p) p.pieces else (d, some p.refusal)

/-- Make the directories above a file, if its path has some that do not exist. -/
def prepare (d : Disk) (p : Path) : Disk × Option DiskError :=
  match p.parent? with
  | none => (d, none)
  | some above =>
    if above.isEmpty || d.pathExists above then (d, none) else d.makeDirectories above

/-- Write a text to a file and make the directories above it. -/
def save (d : Disk) (p : Path) (text : String) : Disk × Option DiskError :=
  match d.prepare p with
  | (d, some e) => (d, some e)
  | (d, none) =>
    match d.write p text with
    | .ok written => (written, none)
    | .error e => (d, some e)

/-- Remove what a path names. -/
def remove (d : Disk) (p : Path) : Disk :=
  match d.locate? p with
  | none => d
  | some location => { d with root := d.root.remove location }

/-- The files below the working directory, as relative paths. -/
def files (d : Disk) : List Path :=
  ((d.root.at? d.working).map Entry.files).getD [] |>.map fun location =>
    ⟨String.intercalate "/" location⟩

end Disk

end GridStyle
