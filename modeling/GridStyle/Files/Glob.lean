import GridStyle.Files.Disk

/-!
# Glob Patterns

A glob pattern is a path whose pieces are patterns for names. `?` stands for a character, `*` for
any text, and `[…]` for a character of a set or, after `!`, for one outside of it. The piece `**`
stands for any number of directories; it may not be part of a longer piece. A piece without any
of these is literal: it is looked up, not matched.

Names that start with a point are matched like others, and directories like files. What is found
is written as the literal pieces were, but a leading point is left out in front of names that
were matched.

This is the pattern language that the package `glob` documents for its version 0.3, with its options
left as they are by default: a star and a question mark match a point in front of a name, and what
cannot be listed is passed over.

## Main definitions

* `Pattern`: the pattern of a piece, read by `readPiece` and matched by `Pattern.accepts`.
* `expand`: the paths to which patterns lead from a directory.
* `find`: the paths that match a glob pattern.
-/

namespace GridStyle.Glob

/-- A part of a pattern for names. -/
inductive Atom where
  /-- The character itself. -/
  | char (c : Char)
  /-- Any character. -/
  | any
  /-- Any text. -/
  | anyText
  /-- A character in one of some ranges. -/
  | within (ranges : List (Char × Char))
  /-- A character in none of some ranges. -/
  | outside (ranges : List (Char × Char))
  deriving DecidableEq, Repr

/-- A pattern for one piece of a path. -/
inductive Pattern where
  /-- Any number of directories. -/
  | anyDirectories
  /-- A pattern for names. -/
  | named (atoms : List Atom)
  deriving DecidableEq, Repr

/-- The ranges of a set: three characters with a dash in the middle, or single ones. -/
def rangesOf : List Char → List (Char × Char)
  | low :: '-' :: high :: rest => (low, high) :: rangesOf rest
  | c :: rest => (c, c) :: rangesOf rest
  | [] => []

/-- The characters up to the bracket that closes a set, and what follows it. The first character
belongs to the set even if it is a bracket. -/
def closeSet : List Char → Option (List Char × List Char)
  | [] => none
  | first :: rest =>
    match rest.dropWhile (· != ']') with
    | [] => none
    | _ :: after => some (first :: rest.takeWhile (· != ']'), after)

/-- Read a pattern for names; `fuel` bounds its length. A set has to be closed, and of stars there
may be only one at a place. -/
def readAtoms : Nat → List Char → Option (List Atom)
  | _, [] => some []
  | 0, _ => none
  | _ + 1, '*' :: '*' :: _ => none
  | fuel + 1, '*' :: rest => (readAtoms fuel rest).map (.anyText :: ·)
  | fuel + 1, '?' :: rest => (readAtoms fuel rest).map (.any :: ·)
  | fuel + 1, '[' :: '!' :: rest => do
    let (members, rest) ← closeSet rest
    let atoms ← readAtoms fuel rest
    return .outside (rangesOf members) :: atoms
  | fuel + 1, '[' :: rest => do
    let (members, rest) ← closeSet rest
    let atoms ← readAtoms fuel rest
    return .within (rangesOf members) :: atoms
  | fuel + 1, c :: rest => (readAtoms fuel rest).map (.char c :: ·)

/-- Read the pattern of one piece. -/
def readPiece (piece : String) : Option Pattern :=
  if piece = "**" then some .anyDirectories
  else (readAtoms piece.length piece.toList).map .named

/-- A character is in one of some ranges. -/
def inRanges (c : Char) (ranges : List (Char × Char)) : Bool :=
  ranges.any fun range => range.1 ≤ c && c ≤ range.2

/-- Some tail of a text satisfies a condition. -/
def someTail (p : List Char → Bool) : List Char → Bool
  | [] => p []
  | c :: cs => p (c :: cs) || someTail p cs

/-- A name matches a pattern. -/
def matchAtoms : List Atom → List Char → Bool
  | [], cs => cs.isEmpty
  | .anyText :: atoms, cs => someTail (matchAtoms atoms) cs
  | .char c :: atoms, d :: cs => c == d && matchAtoms atoms cs
  | .any :: atoms, _ :: cs => matchAtoms atoms cs
  | .within ranges :: atoms, c :: cs => inRanges c ranges && matchAtoms atoms cs
  | .outside ranges :: atoms, c :: cs => !inRanges c ranges && matchAtoms atoms cs
  | _ :: _, [] => false

/-- The text that a pattern without special characters stands for. -/
def literal? : List Atom → Option (List Char)
  | [] => some []
  | .char c :: atoms => (literal? atoms).map (c :: ·)
  | _ :: _ => none

namespace Pattern

/-- A name matches the pattern of a piece. -/
def accepts : Pattern → String → Bool
  | .anyDirectories, _ => true
  | .named atoms, name => matchAtoms atoms name.toList

/-- The pattern starts with a point, so it can match the names of the directory itself and of the
one above it. -/
def startsWithPoint : Pattern → Bool
  | .named (.char '.' :: _) => true
  | _ => false

end Pattern

/-- The path of a name in a directory. In the working directory names stand alone. -/
def below (dir : Path) (name : String) : Path :=
  if dir.same ⟨"."⟩ then ⟨name⟩ else dir.join ⟨name⟩

mutual

/-- The entries at any depth below a directory, with their paths. Where the disk does not take the
path of a directory, none of its entries are found. -/
def allBelow (dir : Path) : Entry → List (Path × Entry)
  | .file _ => []
  | .directory entries => if dir.isUsable then allOf dir entries else []

/-- Named entries and those below them, with their paths. -/
def allOf (dir : Path) : List (String × Entry) → List (Path × Entry)
  | [] => []
  | (name, e) :: rest =>
    (below dir name, e) :: (allBelow (below dir name) e ++ allOf dir rest)

end

/-- The entries of a directory with their paths. -/
def childrenOf (dir : Path) (e : Entry) : List (Path × Entry) :=
  e.entries.map fun (name, e) => (below dir name, e)

/-- The paths to which the patterns lead from a directory. -/
def expand (d : Disk) : List Pattern → Path → List Path
  | [], path => [path]
  -- At the end it stands for directories alone.
  | .anyDirectories :: [], path =>
    match d.entry? path with
    | none => []
    | some e => ((allBelow path e).filter fun found => found.2.isDirectory).map (·.1)
  -- The next pattern is tried on every entry below; those that fail lead nowhere.
  | .anyDirectories :: next :: rest, path =>
    match d.entry? path with
    | none => []
    | some e =>
      (allBelow path e).flatMap fun (found, _) =>
        if found.fileName?.any next.accepts then expand d rest found else []
  | .named atoms :: rest, path =>
    match literal? atoms with
    | some cs =>
      let name := String.ofList cs
      let next := below path name
      -- A point or a double point names something in directories only.
      let present :=
        if name = "." ∨ name = ".." then d.isDirectory path else d.pathExists next
      if present then expand d rest next else []
    | none =>
      let pattern := Pattern.named atoms
      let found := ((d.entry? path).map (childrenOf path)).getD []
      let special :=
        if pattern.startsWithPoint && d.isDirectory path then
          ([".", ".."].filter pattern.accepts).map fun name => path.join ⟨name⟩
        else []
      (found.filter fun f => f.1.fileName?.any pattern.accepts).flatMap (fun f => expand d rest f.1)
        ++ special.flatMap (expand d rest)

/-- Leave out repeated wildcards for directories, which say nothing. -/
def mergeWildcards : List Pattern → List Pattern
  | .anyDirectories :: .anyDirectories :: rest => mergeWildcards (.anyDirectories :: rest)
  | pattern :: rest => pattern :: mergeWildcards rest
  | [] => []

/-- The pieces of a pattern behind the root. A slash at the end starts no piece. -/
def piecesOf (pattern : Path) : List String :=
  let pieces := if pattern.isAbsolute then pattern.pieces.drop 1 else pattern.pieces
  if pieces.getLast? = some "" then pieces.dropLast else pieces

/-- The paths that match a pattern; none if it is not a pattern. A slash at the end asks for
directories. -/
def find (d : Disk) (pattern : Path) : List Path :=
  match (piecesOf pattern).mapM readPiece with
  | none => []
  | some patterns =>
    let found :=
      expand d (mergeWildcards patterns) (if pattern.isAbsolute then ⟨"/"⟩ else ⟨"."⟩)
    if pattern.endsWithSlash then found.filter d.isDirectory else found

end GridStyle.Glob
