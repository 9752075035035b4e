import GridStyle.Toml.Scalar
import GridStyle.Toml.Table

/-!
# Reading TOML

A document is read line by line: blank lines and comments, headers, and keys with values. Inside
brackets values may stretch over lines. `parse` gives the table of a document, or `none` for a
text that is not TOML.

Readers take the characters that are left and give what they read with the characters after it.

The language is that of the TOML specification, version 1.0.0, with the bound on nesting that the
package `toml` 0.8 sets.
-/

namespace GridStyle.Toml

/-- A reader at the front of a text. -/
abbrev Reader (α : Type) := List Char → Option (α × List Char)

/-- Values nest at most this deep, and a dotted key has at most this many names. -/
def nestingLimit : Nat := 79

/-- A blank within a line. -/
def isLineBlank (c : Char) : Bool := c == ' ' || c == '\t'

/-- A character that may stand for itself: no control character. -/
def isVisible (c : Char) : Bool := c == '\t' || (' ' ≤ c && c != '\x7f')

/-- Skip the blanks within a line. -/
def skipBlanks (cs : List Char) : List Char := cs.dropWhile isLineBlank

/-- Skip a comment, which ends before the line break. -/
def skipComment : List Char → List Char
  | '#' :: cs => cs.dropWhile isVisible
  | cs => cs

/-- Skip a line break. -/
def skipBreak? : List Char → Option (List Char)
  | '\n' :: cs => some cs
  | '\r' :: '\n' :: cs => some cs
  | _ => none

/-- Skip the end of a line: blanks, a comment and the line break or the end of the text. -/
def endLine? (cs : List Char) : Option (List Char) :=
  match skipComment (skipBlanks cs) with
  | [] => some []
  | cs => skipBreak? cs

/-- Skip blanks, comments and at most `fuel` line breaks. -/
def skipLines : Nat → List Char → List Char
  | 0, cs => cs
  | fuel + 1, cs =>
    let cs := skipComment (skipBlanks cs)
    match skipBreak? cs with
    | some rest => skipLines fuel rest
    | none => cs

/-- Skip blanks, comments and line breaks. -/
def skipSpace (cs : List Char) : List Char := skipLines (cs.length + 1) cs

/-! ## Strings -/

/-- The character with a number given in hexadecimal. -/
def ofCode (digits : List Char) : Option Char :=
  if digits.all (Text.isDigitOf 16) then
    let n := Text.ofDigits 16 digits
    if h : n.isValidChar then some (Char.ofNatAux n h) else none
  else none

/-- Read a code of `count` digits. -/
def readCode (count : Nat) : Reader Char := fun cs =>
  if cs.length < count then none
  else (ofCode (cs.take count)).map fun c => (c, cs.drop count)

/-- Read what follows a backslash. -/
def readEscape : Reader Char
  | 'b' :: cs => some ('\x08', cs)
  | 't' :: cs => some ('\t', cs)
  | 'n' :: cs => some ('\n', cs)
  | 'f' :: cs => some ('\x0c', cs)
  | 'r' :: cs => some ('\r', cs)
  | '\x22' :: cs => some ('\x22', cs)
  | '\x5c' :: cs => some ('\x5c', cs)
  | 'u' :: cs => readCode 4 cs
  | 'U' :: cs => readCode 8 cs
  | _ => none

/-- Put a character in front of what was read. -/
def ahead (c : Char) (read : List Char × List Char) : List Char × List Char :=
  (c :: read.1, read.2)

/-- Read a string in double quotes up to the closing one; `fuel` bounds its length. -/
def readBasic : Nat → Reader (List Char)
  | 0, _ => none
  | _, [] => none
  | _ + 1, '\x22' :: cs => some ([], cs)
  | fuel + 1, '\x5c' :: cs => do
    let (c, cs) ← readEscape cs
    return ahead c (← readBasic fuel cs)
  | fuel + 1, c :: cs => if isVisible c then (readBasic fuel cs).map (ahead c) else none

/-- Read a string in single quotes up to the closing one. -/
def readLiteral : Reader (List Char) := fun cs =>
  match cs.dropWhile fun c => isVisible c && c != '\x27' with
  | '\x27' :: rest => some (cs.takeWhile fun c => isVisible c && c != '\x27', rest)
  | _ => none

/-- Skip blanks and at most `fuel` line breaks. -/
def skipFold : Nat → List Char → List Char
  | 0, cs => cs
  | fuel + 1, cs =>
    let cs := skipBlanks cs
    match skipBreak? cs with
    | some rest => skipFold fuel rest
    | none => cs

/-- Skip a line break with the blanks around it, and the blank lines after it. -/
def skipFolded? (cs : List Char) : Option (List Char) :=
  (skipBreak? (skipBlanks cs)).map fun rest => skipFold (rest.length + 1) rest

/-- Read a string of several lines up to three closing quotes, two more of which may belong to
the text. With `escapes` a backslash starts an escape or folds lines. -/
def readLong (quote : Char) (escapes : Bool) : Nat → Reader (List Char)
  | 0, _ => none
  | _, [] => none
  | fuel + 1, c :: cs =>
    if c == quote then
      -- Of a run of quotes the last three close the string.
      let run := (c :: cs).takeWhile (· == quote)
      if run.length < 3 then (readLong quote escapes fuel cs).map (ahead c)
      else if run.length ≤ 5 then some (run.drop 3, (c :: cs).drop run.length)
      else none
    else if c == '\x5c' && escapes then
      match skipFolded? cs with
      | some rest => readLong quote escapes fuel rest
      | none => do
        let (c, cs) ← readEscape cs
        return ahead c (← readLong quote escapes fuel cs)
    else
      match skipBreak? (c :: cs) with
      | some rest => (readLong quote escapes fuel rest).map (ahead '\n')
      | none => if isVisible c then (readLong quote escapes fuel cs).map (ahead c) else none

/-- Read a string of several lines. A line break right at the front is left out. -/
def readLines (quote : Char) (escapes : Bool) : Reader (List Char) := fun cs =>
  let cs := (skipBreak? cs).getD cs
  readLong quote escapes (cs.length + 1) cs

/-- Read a string within one line. -/
def readQuoted : Reader String
  | '\x22' :: cs => (readBasic (cs.length + 1) cs).map fun (s, cs) => (String.ofList s, cs)
  | '\x27' :: cs => (readLiteral cs).map fun (s, cs) => (String.ofList s, cs)
  | _ => none

/-- Read a string. -/
def readString : Reader String
  | '\x22' :: '\x22' :: '\x22' :: cs =>
    (readLines '\x22' true cs).map fun (s, cs) => (String.ofList s, cs)
  | '\x27' :: '\x27' :: '\x27' :: cs =>
    (readLines '\x27' false cs).map fun (s, cs) => (String.ofList s, cs)
  | cs => readQuoted cs

/-! ## Keys -/

/-- A character of a key without quotes. -/
def isKeyChar (c : Char) : Bool := c.isAlphanum || c == '_' || c == '-'

/-- Read one name of a key with the blanks around it. -/
def readName : Reader String := fun cs =>
  let cs := skipBlanks cs
  let read :=
    match cs with
    | '\x22' :: _ | '\x27' :: _ => readQuoted cs
    | _ =>
      match cs.takeWhile isKeyChar with
      | [] => none
      | name => some (String.ofList name, cs.drop name.length)
  read.map fun (name, cs) => (name, skipBlanks cs)

/-- Read the names of a key after the first; `fuel` bounds their number. -/
def readNames : Nat → Reader (List String)
  | fuel + 1, '.' :: cs => do
    let (name, cs) ← readName cs
    let (names, cs) ← readNames fuel cs
    return (name :: names, cs)
  | _, cs => some ([], cs)

/-- Read a dotted key: the names before the last, and the last. -/
def readKey : Reader (List String × String) := fun cs => do
  let (name, cs) ← readName cs
  let (names, cs) ← readNames cs.length cs
  let all := name :: names
  if nestingLimit < all.length then none else some ((all.dropLast, all.getLastD ""), cs)

/-! ## Values -/

/-- Read a scalar. A blank instead of a letter may join a date and a time. -/
def readToken : Reader Value := fun cs =>
  let token := cs.takeWhile isScalarChar
  let rest := cs.drop token.length
  let time := (rest.drop 1).takeWhile isScalarChar
  if isDate token && rest.head? = some ' ' && isZonedTime time then
    some (.moment (String.ofList (token ++ ' ' :: time)), rest.drop (1 + time.length))
  else (readScalar token).map fun value => (value, rest)

/-- Read items separated by commas up to the closing bracket, where a comma may precede it. -/
def readItems (read : Reader Value) : Nat → Reader (List Value)
  | 0, _ => none
  | fuel + 1, cs =>
    match skipSpace cs with
    | ']' :: rest => some ([], rest)
    | cs => do
      let (item, cs) ← read cs
      match skipSpace cs with
      | ',' :: cs =>
        let (items, cs) ← readItems read fuel cs
        return (item :: items, cs)
      | ']' :: cs => return ([item], cs)
      | _ => none

/-- Read a key with its value. -/
def readPair (read : Reader Value) : Reader ((List String × String) × Value) := fun cs => do
  let (key, cs) ← readKey cs
  match cs with
  | '=' :: cs =>
    let (value, cs) ← read (skipBlanks cs)
    return ((key, value), cs)
  | _ => none

/-- Read pairs separated by commas up to the closing brace. No comma may precede it. -/
def readPairs (read : Reader Value) : Nat → Reader (List ((List String × String) × Value))
  | 0, _ => none
  | fuel + 1, cs => do
    let (pair, cs) ← readPair read cs
    match skipBlanks cs with
    | ',' :: cs =>
      let (pairs, cs) ← readPairs read fuel cs
      return (pair :: pairs, cs)
    | '\x7d' :: cs => return ([pair], cs)
    | _ => none

/-- Read what stands between braces. -/
def readBraces (read : Reader Value) : Reader Value := fun cs => do
  let (pairs, cs) ←
    match skipBlanks cs with
    | '\x7d' :: cs => some ([], cs)
    | cs => readPairs read (cs.length + 1) cs
  let entries ← ofPairs pairs
  return (.table .braces entries, cs)

/-- Read a value that nests at most `depth` deep. -/
def readValue : (depth : Nat) → Reader Value
  | depth, '[' :: cs =>
    match depth with
    | 0 => none
    | depth + 1 =>
      (readItems (readValue depth) (cs.length + 1) cs).map fun (items, cs) => (.array items, cs)
  | depth, '\x7b' :: cs =>
    match depth with
    | 0 => none
    | depth + 1 => readBraces (readValue depth) cs
  | _, cs =>
    match cs with
    | '\x22' :: _ | '\x27' :: _ => (readString cs).map fun (s, cs) => (.text s, cs)
    | _ => readToken cs

/-! ## Documents -/

/-- A document while it is read: its table, and the header that the lines belong to. -/
structure Building where
  /-- The table of the document. -/
  document : Entries := []
  /-- The names of the last header. -/
  current : List String := []

/-- Read a header with its brackets. The flag says whether they are doubled. -/
def readHeader : Reader (Bool × List String × String)
  | '[' :: '[' :: cs => do
    let ((path, key), cs) ← readKey cs
    match cs with
    | ']' :: ']' :: cs => return ((true, path, key), cs)
    | _ => none
  | '[' :: cs => do
    let ((path, key), cs) ← readKey cs
    match cs with
    | ']' :: cs => return ((false, path, key), cs)
    | _ => none
  | _ => none

/-- Add a header. -/
def Building.open? (b : Building) (repeated : Bool) (path : List String) (key : String) :
    Option Building :=
  let document := if repeated then openRepeated key path b.document
    else openTable key path b.document
  document.map fun document => ⟨document, path ++ [key]⟩

/-- Add a key with its value to the table of the last header. -/
def Building.add? (b : Building) (path : List String) (key : String) (value : Value) :
    Option Building :=
  (descend (insert key value path) b.current b.document).map fun document =>
    { b with document }

/-- Read one line. -/
def readLine (b : Building) (cs : List Char) : Option (Building × List Char) :=
  match skipBlanks cs with
  | [] => some (b, [])
  | '#' :: cs => (endLine? ('#' :: cs)).map fun rest => (b, rest)
  | '[' :: cs => do
    let ((repeated, path, key), rest) ← readHeader ('[' :: cs)
    let b ← b.open? repeated path key
    let rest ← endLine? rest
    return (b, rest)
  | cs =>
    match skipBreak? cs with
    | some rest => some (b, rest)
    | none => do
      let (((path, key), value), rest) ← readPair (readValue nestingLimit) cs
      let b ← b.add? path key value
      let rest ← endLine? rest
      return (b, rest)

/-- Read at most `fuel` lines. -/
def readDocument : Nat → Building → List Char → Option Entries
  | _, b, [] => some b.document
  | 0, _, _ => none
  | fuel + 1, b, cs => do
    let (b, rest) ← readLine b cs
    readDocument fuel b rest

/-- Read a document, which a byte order mark may precede. -/
def parse (text : String) : Option Entries :=
  let cs := text.toList
  let cs := if cs.head? = some '\ufeff' then cs.drop 1 else cs
  readDocument (cs.length + 1) {} cs

end GridStyle.Toml
