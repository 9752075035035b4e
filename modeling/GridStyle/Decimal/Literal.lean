import GridStyle.Text.Digit

/-!
# Reading Decimal Numbers

A decimal literal is an optional sign and then digits with an optional point and an optional
power of ten, or one of the words `inf`, `infinity` and `nan` in any letter case. At least one
digit stands before the power, on either side of the point. Only ASCII digits are digits.

`Literal.read` takes the text apart and `Literal.toFloat` gives the double nearest to the value
written, a tie going to the even one.
-/

namespace GridStyle.Decimal

/-- What a decimal literal says. -/
inductive Literal where
  /-- The number `digits * 10 ^ exponent`, negated if `negative`. -/
  | finite (negative : Bool) (digits : Nat) (exponent : Int)
  /-- An infinity. -/
  | infinite (negative : Bool)
  /-- Not a number. -/
  | notNumber
  deriving DecidableEq, Repr

/-- Take a sign off the front, and say whether it was a minus. -/
def splitSign : List Char → Bool × List Char
  | '-' :: cs => (true, cs)
  | '+' :: cs => (false, cs)
  | cs => (false, cs)

/-- The leading digits of a text and what follows them. -/
def spanDigits (cs : List Char) : List Char × List Char :=
  (cs.takeWhile Char.isDigit, cs.dropWhile Char.isDigit)

/-- The fraction digits after a point, and what follows them. Without a point there are none. -/
def spanFraction : List Char → List Char × List Char
  | '.' :: cs => spanDigits cs
  | cs => ([], cs)

/-- The power of ten written at the end of a literal: nothing, or `e` with a signed number. -/
def readPower : List Char → Option Int
  | [] => some 0
  | e :: cs =>
    if e = 'e' ∨ e = 'E' then
      let (negative, ds) := splitSign cs
      if ds.isEmpty || !ds.all Char.isDigit then none
      else some (if negative then -(Text.ofDigits 10 ds : Int) else Text.ofDigits 10 ds)
    else none

/-- The words that stand for a number which has no digits. -/
def readWord (negative : Bool) (cs : List Char) : Option Literal :=
  match String.ofList (cs.map Char.toLower) with
  | "inf" | "infinity" => some (.infinite negative)
  | "nan" => some .notNumber
  | _ => none

/-- Read a text that is a decimal literal from its first to its last character. -/
def Literal.read (cs : List Char) : Option Literal :=
  let (negative, body) := splitSign cs
  let (whole, afterWhole) := spanDigits body
  let (fraction, afterFraction) := spanFraction afterWhole
  if whole.isEmpty && fraction.isEmpty then readWord negative body
  else
    (readPower afterFraction).map fun power =>
      .finite negative (Text.ofDigits 10 (whole ++ fraction)) (power - fraction.length)

/-- The largest power of ten that can matter: `10 ^ 400` is beyond every double and
`10 ^ -400` rounds to zero. -/
def powerLimit : Int := 400

/-- The double nearest to `digits * 10 ^ exponent`. Magnitudes beyond `powerLimit` are decided
without computing the power. -/
def nearest (digits : Nat) (exponent : Int) : Float :=
  let leading := exponent + (Nat.toDigits 10 digits).length
  if digits = 0 || leading < -powerLimit then 0.0
  else if powerLimit < leading then Float.ofBits 0x7FF0000000000000
  else Float.ofScientific digits (exponent < 0) exponent.natAbs

/-- The double that a literal denotes. -/
def Literal.toFloat : Literal → Float
  | .finite negative digits exponent =>
    if negative then -(nearest digits exponent) else nearest digits exponent
  | .infinite negative =>
    if negative then Float.ofBits 0xFFF0000000000000 else Float.ofBits 0x7FF0000000000000
  | .notNumber => Float.ofBits 0x7FF8000000000000

/-- The double written by a text that is a decimal literal as a whole. -/
def readFloat (cs : List Char) : Option Float :=
  (Literal.read cs).map Literal.toFloat

/-- `readFloat` on strings. -/
def readFloatText (text : String) : Option Float :=
  readFloat text.toList

end GridStyle.Decimal
