import GridStyle.Decimal.Notation
import GridStyle.Json5.Value

/-!
# Indented JSON

Values as JSON text in the indented layout: two blanks per level, one member or item per line,
and nothing between the brackets of an empty list or object. Control characters are escaped, and
every other character stands for itself.
-/

namespace GridStyle.Json5

/-- A hexadecimal digit. -/
def hexDigit (n : Nat) : Char := (Nat.toDigits 16 n).headD '0'

/-- A character inside quotation marks. -/
def escape (c : Char) : List Char :=
  match c with
  | '\x22' => ['\x5c', '\x22']
  | '\x5c' => ['\x5c', '\x5c']
  | '\n' => ['\x5c', 'n']
  | '\r' => ['\x5c', 'r']
  | '\t' => ['\x5c', 't']
  | '\x08' => ['\x5c', 'b']
  | '\x0c' => ['\x5c', 'f']
  | c =>
    if c.toNat < 32 then
      ['\x5c', 'u', '0', '0', hexDigit (c.toNat / 16), hexDigit (c.toNat % 16)]
    else [c]

/-- A text in quotation marks. -/
def quoted (text : String) : String :=
  "\x22" ++ String.ofList (text.toList.flatMap escape) ++ "\x22"

/-- A line break and the indentation of a level. -/
def newline (level : Nat) : String :=
  String.ofList ('\n' :: List.replicate (2 * level) ' ')

/-- The lines of a list or an object between its brackets. -/
def bracketed (opening closing : String) (level : Nat) (lines : List String) : String :=
  if lines.isEmpty then opening ++ closing
  else
    opening ++ newline (level + 1) ++ String.intercalate ("," ++ newline (level + 1)) lines ++
      newline level ++ closing

namespace Value

mutual

/-- A value at a level of indentation. -/
def prettyAt (level : Nat) : Value → String
  | .null => "null"
  | .bool value => if value then "true" else "false"
  | .whole value => toString value
  | .real value => Decimal.plainText value
  | .text value => quoted value
  | .array items => bracketed "[" "]" level (prettyItems (level + 1) items)
  | .object members => bracketed "\x7b" "\x7d" level (prettyMembers (level + 1) members)

/-- The items of a list. -/
def prettyItems (level : Nat) : List Value → List String
  | [] => []
  | item :: items => prettyAt level item :: prettyItems level items

/-- The members of an object. -/
def prettyMembers (level : Nat) : List (String × Value) → List String
  | [] => []
  | (name, value) :: members =>
    (quoted name ++ ": " ++ prettyAt level value) :: prettyMembers level members

end

/-- A value as indented text. -/
def pretty (value : Value) : String := prettyAt 0 value

end Value

end GridStyle.Json5
