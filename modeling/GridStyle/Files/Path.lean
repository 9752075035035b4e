import GridStyle.Text.Split

/-!
# Paths

A path is a text whose pieces are separated by slashes. Two texts denote the same path if they
have the same *components*: empty pieces say nothing, and neither does a single point, except in
front of a relative path. So `a//b/` and `a/./b` are the same path as `a/b`, but `./a/b` is not.
Names of files are compared, never looked up, and a double point is kept.

Paths are ordered component by component.
-/

namespace GridStyle

/-- A path as it was written. -/
structure Path where
  /-- The text. -/
  text : String
  deriving DecidableEq, Repr, Inhabited

/-- A part of a path. -/
inductive Component where
  /-- The root of an absolute path. -/
  | root
  /-- The point in front of a relative path. -/
  | here
  /-- A double point. -/
  | parent
  /-- The name of a file or directory. -/
  | name (text : String)
  deriving DecidableEq, Repr

namespace Component

/-- The kinds of components in their order. -/
def rank : Component → Nat
  | root => 0
  | here => 1
  | parent => 2
  | name _ => 3

/-- The order of components: by kind, and names by their characters. -/
def before (a b : Component) : Bool :=
  match a, b with
  | name s, name t => decide (s < t)
  | a, b => a.rank < b.rank

/-- The component that a piece stands for, if it stands for one. -/
def ofPiece? (first : Bool) : String → Option Component
  | "" => none
  | "." => if first then some here else none
  | ".." => some parent
  | text => some (name text)

end Component

/-- The order of component lists: the first difference decides, and a beginning comes first. -/
def componentsBefore : List Component → List Component → Bool
  | [], [] => false
  | [], _ :: _ => true
  | _ :: _, [] => false
  | a :: as, b :: bs =>
    if a.before b then true else if b.before a then false else componentsBefore as bs

namespace Path

/-- The pieces between the slashes. -/
def pieces (p : Path) : List String :=
  (Text.cutAt (· == '/') p.text.toList).map String.ofList

/-- The path starts at the root. -/
def isAbsolute (p : Path) : Bool := p.text.toList.head? = some '/'

/-- The path ends with a slash. -/
def endsWithSlash (p : Path) : Bool := p.text.toList.getLast? = some '/'

/-- Nothing was written. -/
def isEmpty (p : Path) : Bool := p.text.isEmpty

/-- The components of a path. -/
def components (p : Path) : List Component :=
  match p.pieces with
  | [] => []
  | first :: rest =>
    let rest := rest.filterMap (Component.ofPiece? false)
    if p.isAbsolute then .root :: rest else (Component.ofPiece? true first).toList ++ rest

/-- Both texts denote the same path. -/
def same (p q : Path) : Bool := p.components == q.components

/-- The order of paths. -/
def before (p q : Path) : Bool := componentsBefore p.components q.components

/-- The order of paths, with equal paths in either order. -/
def atMost (p q : Path) : Bool := !q.before p

/-- The path lies in a directory or is the directory, as far as the components tell. -/
def startsWith (p dir : Path) : Bool := dir.components.isPrefixOf p.components

/-- A path below another one. An absolute path stays itself. -/
def join (p q : Path) : Path :=
  if q.isAbsolute then q
  else if p.isEmpty || p.endsWithSlash then ⟨p.text ++ q.text⟩
  else ⟨p.text ++ "/" ++ q.text⟩

/-- The path with the slash of a directory at its end. -/
def asDirectory (p : Path) : Path := p.join ⟨""⟩

/-- The piece is no component behind the first place. -/
def isIdle (piece : String) : Bool := piece == "" || piece == "."

/-- The last pieces that are no components, latest first, are left out. At the front of a path
every piece counts. -/
def dropIdle : List String → List String
  | [] => []
  | [piece] => [piece]
  | piece :: rest => if isIdle piece then dropIdle rest else piece :: rest

/-- The path of pieces, latest first. The empty piece alone is the root. -/
def ofPieces (reversed : List String) (absolute : Bool) : Path :=
  match reversed with
  | [""] => if absolute then ⟨"/"⟩ else ⟨""⟩
  | pieces => ⟨String.intercalate "/" pieces.reverse⟩

/-- The path without its last component, written as it was. The root and the empty path have
none. -/
def parent? (p : Path) : Option Path :=
  match p.components with
  | [] | [.root] => none
  | _ =>
    match dropIdle p.pieces.reverse with
    | [] | [_] => some ⟨""⟩
    | _ :: rest => some (ofPieces (dropIdle rest) p.isAbsolute)

/-- The name at the end of the path, unless that is a double point, the root or nothing. -/
def fileName? (p : Path) : Option String :=
  match p.components.getLast? with
  | some (.name text) => some text
  | _ => none

/-- A name cut at its last point: the stem and the extension. A point in front belongs to the
stem. -/
def cutName (name : String) : String × Option String :=
  let reversed := name.toList.reverse
  match reversed.dropWhile (· != '.') with
  | [] | ['.'] => (name, none)
  | _ :: stem =>
    (String.ofList stem.reverse, some (String.ofList (reversed.takeWhile (· != '.')).reverse))

/-- The file name without its extension. -/
def stem? (p : Path) : Option String := p.fileName?.map fun name => (cutName name).1

/-- The extension of the file name. -/
def extension? (p : Path) : Option String := p.fileName?.bind fun name => (cutName name).2

/-- The path and its parents, the path first. No path has more parents than pieces. -/
def ancestors (p : Path) : List Path :=
  go (p.pieces.length + 1) p
where
  /-- The path and at most `fuel` parents. -/
  go : Nat → Path → List Path
    | 0, p => [p]
    | fuel + 1, p =>
      match p.parent? with
      | none => [p]
      | some q => p :: go fuel q

end Path

end GridStyle
