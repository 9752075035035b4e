import GridStyle.Json5.Identifier
import GridStyle.Json5.Literal

/-!
# JSON5 Text

The grammar of JSON5, an extension of JSON: comments, commas after the last item, keys without
quotes, strings in either kind of quote with more escapes, and numbers with signs, hexadecimal
digits and lone points.

A text is first matched against the grammar as a whole, which gives a `Written` tree with the
literals as they stand. Then the literals are read in the order of the text. So a text that is
no JSON5 is reported as such, whatever its literals are.

The grammar is that of the JSON5 specification, version 1.0.0, as the package `json5` 0.4 reads it.
Whole numbers have 64 bits, or 32 where they are hexadecimal, and are refused if they do not fit.
-/

namespace GridStyle.Json5

/-- A value as it is written. -/
inductive Written where
  /-- `null`. -/
  | null
  /-- `true` or `false`. -/
  | bool (value : Bool)
  /-- The characters of a number. -/
  | number (cs : List Char)
  /-- The pieces of a string. -/
  | string (pieces : List Piece)
  /-- A list of values. -/
  | array (items : List Written)
  /-- Keys and values. -/
  | object (members : List (List Piece × Written))

/-! ### Blanks and comments -/

/-- The characters that end a line. -/
def isLineEnd (c : Char) : Bool :=
  c == '\n' || c == '\r' || c == '\u2028' || c == '\u2029'

/-- The characters that are skipped between the parts of a text. -/
def isSpace (c : Char) : Bool :=
  isLineEnd c || c == '\t' || c == '\x0b' || c == '\x0c' || c == '\ufeff' ||
    inRanges [(0x20, 0x20), (0xA0, 0xA0), (0x1680, 0x1680), (0x2000, 0x200A), (0x202F, 0x202F),
      (0x205F, 0x205F), (0x3000, 0x3000)] c

/-- Where skipping stands. -/
inductive Skipping where
  /-- Outside comments. -/
  | outside
  /-- In a comment that ends with the line. -/
  | line
  /-- In a comment that ends with `*/`. -/
  | block

/-- Skip spaces and comments. A comment that is not closed leaves a slash, which nothing
accepts. -/
def skipFrom : Skipping → List Char → List Char
  | .outside, '/' :: '/' :: cs => skipFrom .line cs
  | .outside, '/' :: '*' :: cs => skipFrom .block cs
  | .outside, c :: cs => if isSpace c then skipFrom .outside cs else c :: cs
  | .line, c :: cs => if isLineEnd c then skipFrom .outside cs else skipFrom .line cs
  | .block, '*' :: '/' :: cs => skipFrom .outside cs
  | .block, _ :: cs => skipFrom .block cs
  | .block, [] => ['/']
  | _, [] => []

/-- Skip spaces and comments. -/
def skip (cs : List Char) : List Char := skipFrom .outside cs

/-! ### Numbers -/

/-- Take a fixed text off the front. -/
def dropText? : List Char → List Char → Option (List Char)
  | [], cs => some cs
  | _ :: _, [] => none
  | w :: ws, c :: cs => if w = c then dropText? ws cs else none

/-- The whole part of a number: a zero alone, or digits that do not start with zero. -/
def wholePart : List Char → Option (List Char × List Char)
  | '0' :: cs => some (['0'], cs)
  | c :: cs =>
    if c.isDigit then some (c :: cs.takeWhile Char.isDigit, cs.dropWhile Char.isDigit) else none
  | [] => none

/-- The power of ten of a number, empty if there is none. -/
def powerPart (cs : List Char) : List Char × List Char :=
  match cs with
  | e :: rest =>
    if e = 'e' ∨ e = 'E' then
      let (sign, digits) := match rest with
        | '+' :: ds => (['+'], ds)
        | '-' :: ds => (['-'], ds)
        | ds => ([], ds)
      match digits.takeWhile Char.isDigit with
      -- Without digits the `e` belongs to what follows the number.
      | [] => ([], cs)
      | ds => (e :: sign ++ ds, digits.dropWhile Char.isDigit)
    else ([], cs)
  | [] => ([], cs)

/-- A decimal number without sign. -/
def decimalPart (cs : List Char) : Option (List Char × List Char) :=
  match wholePart cs with
  | some (whole, '.' :: rest) =>
    let (power, after) := powerPart (rest.dropWhile Char.isDigit)
    some (whole ++ '.' :: rest.takeWhile Char.isDigit ++ power, after)
  | some (whole, rest) =>
    let (power, after) := powerPart rest
    some (whole ++ power, after)
  | none =>
    match cs with
    | '.' :: rest =>
      match rest.takeWhile Char.isDigit with
      | [] => none
      | digits =>
        let (power, after) := powerPart (rest.dropWhile Char.isDigit)
        some ('.' :: digits ++ power, after)
    | _ => none

/-- A number without sign. A hexadecimal number is preferred to the zero it starts with. -/
def unsignedPart (cs : List Char) : Option (List Char × List Char) :=
  let hexadecimal := match cs with
    | '0' :: x :: rest =>
      if x = 'x' ∨ x = 'X' then
        match rest.takeWhile isHexDigit with
        | [] => none
        | digits => some ('0' :: x :: digits, rest.dropWhile isHexDigit)
      else none
    | _ => none
  let word (name : String) := (dropText? name.toList cs).map fun rest => (name.toList, rest)
  hexadecimal <|> decimalPart cs <|> word "Infinity" <|> word "NaN"

/-- A number with an optional sign. -/
def numberPart : List Char → Option (List Char × List Char)
  | '+' :: cs => (unsignedPart cs).map fun (n, rest) => ('+' :: n, rest)
  | '-' :: cs => (unsignedPart cs).map fun (n, rest) => ('-' :: n, rest)
  | cs => unsignedPart cs

/-! ### Strings and keys -/

/-- The pieces of a string up to its closing quote. A backslash before the end of a line joins
the lines; a digit other than zero cannot be escaped. -/
def stringPart (quote : Char) (done : List Piece) :
    List Char → Option (List Piece × List Char)
  | [] => none
  | '\x5c' :: 'x' :: a :: b :: cs =>
    if isHexDigit a && isHexDigit b then stringPart quote (.code [a, b] :: done) cs else none
  | '\x5c' :: 'u' :: a :: b :: c :: d :: cs =>
    if [a, b, c, d].all isHexDigit then stringPart quote (.unit [a, b, c, d] :: done) cs else none
  | '\x5c' :: '\r' :: '\n' :: cs => stringPart quote done cs
  | '\x5c' :: c :: cs =>
    if isLineEnd c then stringPart quote done cs
    else if c = 'x' ∨ c = 'u' ∨ (c.isDigit ∧ c ≠ '0') then none
    else stringPart quote (.escaped c :: done) cs
  | c :: cs =>
    if c = quote then some (done.reverse, cs)
    else if c = '\x5c' || isLineEnd c then none
    else stringPart quote (.plain c :: done) cs

/-- The pieces of a key without quotes. `first` says whether its first character is still to
come. -/
def keyPart (first : Bool) (done : List Piece) : List Char → Option (List Piece × List Char)
  | '\x5c' :: 'u' :: a :: b :: c :: d :: cs =>
    if [a, b, c, d].all isHexDigit then keyPart false (.unit [a, b, c, d] :: done) cs
    else if first then none
    else some (done.reverse, '\x5c' :: 'u' :: a :: b :: c :: d :: cs)
  | c :: cs =>
    if (if first then isKeyStart c else isKeyPart c) then keyPart false (.plain c :: done) cs
    else if first then none
    else some (done.reverse, c :: cs)
  | [] => if first then none else some (done.reverse, [])

/-- A key with or without quotes. -/
def memberKey : List Char → Option (List Piece × List Char)
  | '\x22' :: cs => stringPart '\x22' [] cs
  | '\x27' :: cs => stringPart '\x27' [] cs
  | cs => keyPart true [] cs

/-! ### Values -/

mutual

/-- A value at the front of a text. -/
def valuePart : Nat → List Char → Option (Written × List Char)
  | 0, _ => none
  | fuel + 1, cs =>
    match cs with
    | '{' :: rest => (membersPart fuel [] rest).map fun (ms, rest) => (.object ms, rest)
    | '[' :: rest => (itemsPart fuel [] rest).map fun (items, rest) => (.array items, rest)
    | '\x22' :: rest => (stringPart '\x22' [] rest).map fun (s, rest) => (.string s, rest)
    | '\x27' :: rest => (stringPart '\x27' [] rest).map fun (s, rest) => (.string s, rest)
    | _ =>
      let word (name : String) (value : Written) :=
        (dropText? name.toList cs).map fun rest => (value, rest)
      word "null" .null <|> word "true" (.bool true) <|> word "false" (.bool false) <|>
        (numberPart cs).map fun (n, rest) => (.number n, rest)

/-- The items of a list up to its closing bracket. -/
def itemsPart : Nat → List Written → List Char → Option (List Written × List Char)
  | 0, _, _ => none
  | fuel + 1, done, cs =>
    match skip cs with
    | ']' :: rest => some (done.reverse, rest)
    | cs => do
      let (item, rest) ← valuePart fuel cs
      match skip rest with
      | ',' :: rest => itemsPart fuel (item :: done) rest
      | ']' :: rest => some ((item :: done).reverse, rest)
      | _ => none

/-- The members of an object up to its closing brace. -/
def membersPart : Nat → List (List Piece × Written) → List Char →
    Option (List (List Piece × Written) × List Char)
  | 0, _, _ => none
  | fuel + 1, done, cs =>
    match skip cs with
    | '}' :: rest => some (done.reverse, rest)
    | cs => do
      let (key, rest) ← memberKey cs
      let ':' :: rest := skip rest | none
      let (value, rest) ← valuePart fuel (skip rest)
      match skip rest with
      | ',' :: rest => membersPart fuel ((key, value) :: done) rest
      | '}' :: rest => some (((key, value) :: done).reverse, rest)
      | _ => none

end

/-- The value that a whole text writes. Every step but the first of a value takes a character,
so twice the length bounds the steps. -/
def written? (cs : List Char) : Option Written := do
  let (value, rest) ← valuePart (2 * cs.length + 2) (skip cs)
  if (skip rest).isEmpty then some value else none

/-! ### Reading the literals -/

mutual

/-- Read the literals of a written value in the order of the text. -/
def Written.read : Written → Except LiteralError Value
  | .null => .ok .null
  | .bool value => .ok (.bool value)
  | .number cs => readNumber cs
  | .string pieces => (readString pieces).map .text
  | .array items => (readItems items).map .array
  | .object members => (readMembers members).map .object

/-- Read the literals of a list. -/
def readItems : List Written → Except LiteralError (List Value)
  | [] => .ok []
  | item :: items => do
    let value ← item.read
    let values ← readItems items
    return value :: values

/-- Read the literals of the members of an object. -/
def readMembers : List (List Piece × Written) → Except LiteralError (List (String × Value))
  | [] => .ok []
  | (key, item) :: members => do
    let name ← readString key
    let value ← item.read
    let values ← readMembers members
    return (name, value) :: values

end

/-- Why a text has no value. -/
inductive TextError where
  /-- The text is not JSON5. -/
  | grammar
  /-- The text is JSON5, but a literal in it has no value. -/
  | literal (error : LiteralError)
  deriving DecidableEq, Repr

/-- The value of a JSON5 text. -/
def parse (text : String) : Except TextError Value :=
  match written? text.toList with
  | none => .error .grammar
  | some written =>
    match written.read with
    | .ok value => .ok value
    | .error error => .error (.literal error)

end GridStyle.Json5
