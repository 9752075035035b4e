import GridStyle.Decimal.Literal
import GridStyle.Text.Digit
import GridStyle.Text.Split
import GridStyle.Toml.Value

/-!
# TOML Scalars

Numbers, truth values, dates and times are written in letters, digits and a few signs, so the
longest run of such characters is read as a whole. Digits may be grouped by single underscores.
Whole numbers have 64 bits, and a number may not be too large for a double.
-/

namespace GridStyle.Toml

/-- The characters of scalars. -/
def isScalarChar (c : Char) : Bool :=
  c.isAlphanum || c == '+' || c == '-' || c == '_' || c == '.' || c == ':'

/-- Digits without the underscores between them. Groups are not empty. -/
def ungrouped (isDigit : Char → Bool) (cs : List Char) : Option (List Char) :=
  let groups := Text.cutAt (· == '_') cs
  if groups.all fun group => !group.isEmpty && group.all isDigit then some groups.flatten else none

/-- A decimal number without a zero in front of other digits. -/
def readPlainDigits (cs : List Char) : Option (List Char) :=
  match ungrouped Char.isDigit cs with
  | some ('0' :: _ :: _) => none
  | digits => digits

/-- The sign of a number and what follows it. -/
def cutSign : List Char → Bool × List Char
  | '+' :: cs => (false, cs)
  | '-' :: cs => (true, cs)
  | cs => (false, cs)

/-- A whole number within 64 bits. -/
def ofWhole (n : Int) : Option Value :=
  if -(Nat.pow 2 63) ≤ n ∧ n < Nat.pow 2 63 then some (.whole n) else none

/-- Read a whole number: with a base in front, or decimal with a sign. -/
def readWhole (cs : List Char) : Option Value :=
  let based := fun base digits =>
    (ungrouped (Text.isDigitOf base) digits).bind fun digits => ofWhole (Text.ofDigits base digits)
  match cs with
  | '0' :: 'x' :: digits => based 16 digits
  | '0' :: 'o' :: digits => based 8 digits
  | '0' :: 'b' :: digits => based 2 digits
  | cs =>
    let (negative, digits) := cutSign cs
    (readPlainDigits digits).bind fun digits =>
      let n : Int := Text.ofDigits 10 digits
      ofWhole (if negative then -n else n)

/-- The digits after a power sign, with their sign. -/
def readPower (cs : List Char) : Option (List Char) :=
  let digits := ungrouped Char.isDigit (cutSign cs).2
  match cs with
  | '-' :: _ => digits.map ('-' :: ·)
  | _ => digits

/-- A number at its power sign: what stands before it, and what follows if there is one. -/
def cutPower (cs : List Char) : List Char × Option (List Char) :=
  let isSign := fun c => c == 'e' || c == 'E'
  match cs.dropWhile fun c => !isSign c with
  | [] => (cs, none)
  | _ :: power => (cs.takeWhile fun c => !isSign c, some power)

/-- The plain digits of a number with a point or a power, or both. -/
def readFraction (cs : List Char) : Option (List Char) := do
  let (mantissa, power) := cutPower cs
  let power ← match power with
    | none => some []
    | some cs => (readPower cs).map ('e' :: ·)
  match mantissa.dropWhile (· != '.') with
  | [] => if power.isEmpty then none else (readPlainDigits mantissa).map (· ++ power)
  | _ :: fraction =>
    let whole ← readPlainDigits (mantissa.takeWhile (· != '.'))
    let fraction ← ungrouped Char.isDigit fraction
    return whole ++ '.' :: fraction ++ power

/-- Read a number that is not whole. Infinity is written as a word only. -/
def readReal (cs : List Char) : Option Value :=
  let (negative, rest) := cutSign cs
  if rest = "inf".toList then some (.real (if negative then -1.0 / 0.0 else 1.0 / 0.0))
  else if rest = "nan".toList then some (.real (0.0 / 0.0))
  else
    (readFraction rest).bind fun digits =>
      (Decimal.readFloat (if negative then '-' :: digits else digits)).bind fun value =>
        -- Only a positive number can be refused as too large.
        if value.isInf && !negative then none else some (.real value)

/-- A number of exactly `count` digits within bounds. -/
def readField (count low high : Nat) (cs : List Char) : Option Nat :=
  if cs.length = count ∧ cs.all Char.isDigit then
    let n := Text.ofDigits 10 cs
    if low ≤ n ∧ n ≤ high then some n else none
  else none

/-- The days of a month. -/
def daysOf (year month : Nat) : Nat :=
  if month = 2 then
    if year % 4 = 0 ∧ (year % 100 ≠ 0 ∨ year % 400 = 0) then 29 else 28
  else if month ∈ [4, 6, 9, 11] then 30 else 31

/-- A date: year, month and day. -/
def isDate (cs : List Char) : Bool :=
  match Text.cutAt (· == '-') cs with
  | [year, month, day] =>
    match readField 4 0 9999 year, readField 2 1 12 month with
    | some year, some month => (readField 2 1 (daysOf year month) day).isSome
    | _, _ => false
  | _ => false

/-- A time: hour, minute, second and possibly a fraction. -/
def isTime (cs : List Char) : Bool :=
  let fraction := cs.dropWhile (· != '.')
  let fractionOk := match fraction with
    | [] => true
    | _ :: digits => !digits.isEmpty && digits.all Char.isDigit
  match Text.cutAt (· == ':') (cs.takeWhile (· != '.')) with
  | [hour, minute, second] =>
    fractionOk && (readField 2 0 23 hour).isSome && (readField 2 0 59 minute).isSome &&
      (readField 2 0 60 second).isSome
  | _ => false

/-- A distance from world time: a letter, or hours and minutes. -/
def isOffset : List Char → Bool
  | [] | ['Z'] | ['z'] => true
  | c :: cs =>
    (c == '+' || c == '-') &&
      match Text.cutAt (· == ':') cs with
      | [hour, minute] => (readField 2 0 23 hour).isSome && (readField 2 0 59 minute).isSome
      | _ => false

/-- A time that a distance from world time may follow. -/
def isZonedTime (cs : List Char) : Bool :=
  let inTime := fun (c : Char) => c.isDigit || c == ':' || c == '.'
  isTime (cs.takeWhile inTime) && isOffset (cs.dropWhile inTime)

/-- A date, a time, or a date with a time. -/
def isMoment (cs : List Char) : Bool :=
  isDate cs || isTime cs ||
    (isDate (cs.take 10) &&
      match cs.drop 10 with
      | c :: time => (c == 'T' || c == 't') && isZonedTime time
      | [] => false)

/-- Read a scalar that is no string. -/
def readScalar (cs : List Char) : Option Value :=
  if cs = "true".toList then some (.bool true)
  else if cs = "false".toList then some (.bool false)
  else if isMoment cs then some (.moment (String.ofList cs))
  else (readWhole cs).or (readReal cs)

end GridStyle.Toml
