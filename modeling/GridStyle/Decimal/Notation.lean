import GridStyle.Decimal.Shortest

/-!
# Writing Doubles

Doubles are written with their shortest digits (`GridStyle.Decimal.shortest`) in two notations.

* The *plain* notation never uses a power of ten and writes no point for whole numbers.
* The *exact* notation, used in messages about tokens, keeps `.0` on whole numbers and writes a
  power of ten from `10 ^ 16` on and below `10 ^ -4`.

A number in CSS is written plainly; a value without a CSS form has none.
-/

namespace GridStyle.Decimal

/-- `count` zeros. -/
def zeros (count : Nat) : String :=
  String.ofList (List.replicate count '0')

/-- The digits of a decimal with a point where the power of ten puts it. -/
def Digits.positional (d : Digits) : String :=
  let ds := (Nat.toDigits 10 d.digits)
  if 0 ≤ d.power then String.ofList ds ++ zeros d.power.toNat
  else
    let places := (-d.power).toNat
    if ds.length ≤ places then "0." ++ zeros (places - ds.length) ++ String.ofList ds
    else
      String.ofList (ds.take (ds.length - places)) ++ "." ++
        String.ofList (ds.drop (ds.length - places))

/-- The digits of a decimal with the point after the first and a power of ten. -/
def Digits.scientific (d : Digits) : String :=
  let ds := (Nat.toDigits 10 d.digits)
  let power := d.power + (ds.length - 1 : Nat)
  let fraction := ds.drop 1
  String.ofList (ds.take 1) ++ (if fraction.isEmpty then "" else "." ++ String.ofList fraction) ++
    "e" ++ toString power

/-- The sign and then the digits, or the word for a value that has none. -/
def written (digits : Digits → String) (x : Float) : String :=
  let b := Binary.ofFloat x
  let sign := if b.negative then "-" else ""
  if b.biased = 2047 then
    if b.fraction = 0 then sign ++ "inf" else "NaN"
  else sign ++ digits (shortest b)

/-- The plain notation: `2`, `0.1`, `-0`, `0.0000001`, `inf`. -/
def plainText (x : Float) : String :=
  written Digits.positional x

/-- The exact notation: `2.0`, `0.1`, `-0.0`, `1e-7`, `1e21`, `inf`. -/
def exactText (x : Float) : String :=
  written (fun d =>
    let leading := d.power + ((Nat.toDigits 10 d.digits).length - 1 : Nat)
    if d.digits ≠ 0 ∧ (leading < -4 ∨ 16 ≤ leading) then d.scientific
    else if 0 ≤ d.power then d.positional ++ ".0"
    else d.positional) x

/-- A number as CSS text. Infinities and NaN have none, and both zeros are `0`. -/
def cssText (x : Float) : Option String :=
  if !x.isFinite then none
  else if x == 0.0 then some "0"
  else some (plainText x)

end GridStyle.Decimal
