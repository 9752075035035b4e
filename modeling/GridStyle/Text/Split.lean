import GridStyle.Text.Blank

/-!
# Splitting Value Text

Value text is cut at its *top level*: a separator inside parentheses or quotes does not cut. Two
separators are used. A value list is cut at commas (`splitGroup`) and a shorthand at blanks
(`splitWords`). In a value list a backslash also protects the character after it.

The scanner is a fold over the characters, so scanning `a ++ b` is scanning `a` and going on
with `b` from where that ended.

## Main definitions

* `Nesting`: what is open at a place of a text, and `Nesting.advance`, which moves it past a
  character.
* `Splitting.push`: one step of a split.
* `splitGroup` and `splitWords`: the two ways to cut a value.
* `cutAt` and `plainWords`: cutting without regard to nesting.
-/

namespace GridStyle.Text

/-- Where a scan stands: the open quote, the depth of parentheses, and whether the next
character is protected by a backslash. -/
structure Nesting where
  /-- The quotation mark that is open, if any. -/
  quote : Option Char := none
  /-- The number of open parentheses. -/
  depth : Nat := 0
  /-- The character before was a backslash that protects the next one. -/
  escaped : Bool := false
  deriving DecidableEq, Repr

namespace Nesting

/-- Nothing is open: a separator here cuts. -/
def atTop (s : Nesting) : Bool :=
  !s.escaped && s.quote.isNone && s.depth == 0

/-- The effect of a quotation mark: it opens a quote, closes an open one of its own kind, and
is plain text inside one of the other kind. -/
def atQuote (s : Nesting) (mark : Char) : Nesting :=
  match s.quote with
  | none => { s with quote := some mark }
  | some opened => if opened = mark then { s with quote := none } else s

/-- Move past one character. Parentheses count outside quotes only; a closing one without an
opening one is ignored. Backslashes protect only if `escapes` is set. -/
def advance (escapes : Bool) (s : Nesting) (c : Char) : Nesting :=
  if s.escaped then { s with escaped := false }
  else if escapes && c == '\x5c' then { s with escaped := true }
  else if c == '\x22' || c == '\x27' then s.atQuote c
  else if s.quote.isSome then s
  else if c == '(' then { s with depth := s.depth + 1 }
  else if c == ')' then { s with depth := s.depth - 1 }
  else s

end Nesting

/-- A way to cut text: what separates, and whether backslashes protect. -/
structure Cutting where
  /-- The separators. -/
  separates : Char → Bool
  /-- Whether a backslash protects the next character. -/
  escapes : Bool

/-- An unfinished split: the nesting, the part being read and the parts read before it, both
latest first. -/
structure Splitting where
  /-- Where the scan stands. -/
  nesting : Nesting := {}
  /-- The characters of the current part, last one first. -/
  current : List Char := []
  /-- The finished parts, last one first. -/
  parts : List (List Char) := []
  deriving DecidableEq, Repr

namespace Splitting

/-- The finished parts with the current one trimmed and added, unless nothing is left of it. -/
def close (s : Splitting) : List (List Char) :=
  match trim s.current.reverse with
  | [] => s.parts
  | part => part :: s.parts

/-- Read one character: a separator at the top level closes the part, and any other character
belongs to it. -/
def push (cutting : Cutting) (s : Splitting) (c : Char) : Splitting :=
  if s.nesting.atTop && cutting.separates c then
    { s with current := [], parts := s.close }
  else
    { s with nesting := s.nesting.advance cutting.escapes c, current := c :: s.current }

end Splitting

/-- The trimmed, non-empty parts of a text between its top-level separators. -/
def split (cutting : Cutting) (cs : List Char) : List (List Char) :=
  (cs.foldl (Splitting.push cutting) {}).close.reverse

/-- Value lists are cut at commas, and a backslash protects. -/
def atCommas : Cutting := ⟨(· == ','), true⟩

/-- Shorthands are cut at blanks, and a backslash is plain text. -/
def atBlanks : Cutting := ⟨isBlank, false⟩

/-- Cut a value list at its top-level commas. -/
def splitGroup (text : String) : List String :=
  (split atCommas text.toList).map String.ofList

/-- Cut a shorthand at its top-level blanks. -/
def splitWords (text : String) : List String :=
  (split atBlanks text.toList).map String.ofList

/-- Cut a text at every character of a class, keeping empty parts: `n` separators make `n + 1`
parts. -/
def cutAt (separates : Char → Bool) : List Char → List (List Char)
  | [] => [[]]
  | c :: cs =>
    if separates c then [] :: cutAt separates cs
    else
      match cutAt separates cs with
      | [] => [[c]]
      | part :: parts => (c :: part) :: parts

/-- The runs of non-blank characters, regardless of quotes and parentheses. -/
def plainWords (text : String) : List String :=
  ((cutAt isBlank text.toList).filter (!·.isEmpty)).map String.ofList

/-- Something always comes out of `cutAt`. -/
theorem cutAt_ne_nil (separates : Char → Bool) (cs : List Char) : cutAt separates cs ≠ [] := by
  cases cs with
  | nil => simp [cutAt]
  | cons c cs => rw [cutAt]; split <;> (try split) <;> simp

/-- A part that is added is trimmed and not empty. -/
theorem Splitting.close_eq (s : Splitting) :
    s.close = if trim s.current.reverse = [] then s.parts
      else trim s.current.reverse :: s.parts := by
  unfold Splitting.close
  split <;> simp_all

end GridStyle.Text
