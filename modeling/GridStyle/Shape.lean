import GridStyle.Decimal.Literal
import GridStyle.Decimal.Notation
import GridStyle.Text.Blank

/-!
# Clip Shapes

The texts of named clip paths. All coordinates are percentages of the cell box with at most four
places, so a shape fits a cell of any size.
-/

namespace GridStyle.Shape

/-- The ratio of circumference and diameter. -/
def pi : Float := 3.141592653589793

/-- One degree in radians. -/
def degree : Float := pi / 180.0

/-- The shapes that are listed. -/
def names : List String :=
  ["circle", "siogon", "triangle", "rhombus", "pentagon", "hexagon", "star", "diamond", "cross",
    "hypocycloid", "astroid", "clover"]

/-- Round to four places; zero has no sign. -/
def toPlaces (v : Float) : Float :=
  let r := (v * 10000.0).round / 10000.0
  if r == 0.0 then 0.0 else r

/-- A point of a path. -/
def point (x y : Float) : String :=
  Decimal.plainText (toPlaces x) ++ "% " ++ Decimal.plainText (toPlaces y) ++ "%"

/-- A closed path. -/
def path (points : List String) : String :=
  "polygon(" ++ String.intercalate ", " points ++ ")"

/-- A path of `count` points of a curve. -/
def curve (count : Nat) (place : Float → String) : String :=
  path ((List.range count).map fun i => place i.toFloat)

/-- Points on the circle around the box, from the angle `start` in steps of `turn`. -/
def polygon (sides : Nat) (start turn : Float) : String :=
  curve sides fun i =>
    let angle := start + turn * i
    point (angle.cos * 50.0 + 50.0) (angle.sin * 50.0 + 50.0)

/-- The angle between neighbours of a regular polygon. -/
def equalTurn (sides : Nat) : Float := 2.0 * pi / sides.toFloat

/-- A number clamped between two bounds. -/
def clamp (low high n : Int) : Nat := (max low (min high n)).toNat

/-- A regular polygon of 3 to 12 sides. -/
def siogon (sides : Int) : String :=
  let sides := clamp 3 12 sides
  polygon sides 0.0 (equalTurn sides)

/-- A regular polygon that starts at an angle. -/
def regular (sides : Nat) (start : Float) : String :=
  polygon sides start (equalTurn sides)

/-- A cross of two bars. -/
def cross : String :=
  let corners : List (Nat × Nat) :=
    [(5, 35), (35, 35), (35, 5), (65, 5), (65, 35), (95, 35), (95, 65), (65, 65), (65, 95),
      (35, 95), (35, 65), (5, 65)]
  path (corners.map fun (x, y) => toString x ++ "% " ++ toString y ++ "%")

/-- A hypocycloid of 3 to 6 cusps. -/
def hypocycloid (cusps : Int) : String :=
  let k := (clamp 3 6 cusps).toFloat
  let turn := pi / 60.0
  let r := 50.0 / k
  curve 120 fun i =>
    let angle := turn * i + pi
    let x := r * (1.0 - k) * angle.cos + r * ((1.0 - k) * (angle - pi)).cos
    let y := r * (1.0 - k) * angle.sin + r * ((1.0 - k) * (angle - pi)).sin
    point (x + 50.0) (y + 50.0)

/-- A rose curve of 3 or 5 petals; the number four stands for the curve with two. -/
def clover (petals : Int) : String :=
  -- An even factor gives twice as many petals.
  let k : Float := if petals = 4 then 2.0 else (clamp 3 5 petals).toFloat
  let turn := pi / 120.0
  curve 240 fun i =>
    let angle := turn * i
    let x := (k * angle).cos * angle.cos
    let y := (k * angle).cos * angle.sin
    point (x * 50.0 + 50.0) (y * 50.0 + 50.0)

/-- The parameter of a shape: the first argument without its fraction, if it is a number. -/
def parameter (args : List String) (default : Int) : Int :=
  match args with
  | [] => default
  | arg :: _ =>
    match Decimal.readFloat (Text.trim arg.toList) with
    | some v => v.toInt64.toInt
    | none => default

/-- The clip path of a named shape. -/
def ofName? (name : String) (args : List String) : Option String :=
  match name with
  | "circle" => some "circle(50%)"
  | "siogon" => some (siogon (parameter args 4))
  | "triangle" => some (regular 3 (degree * -90.0))
  | "rhombus" => some (siogon 4)
  | "pentagon" => some (regular 5 (degree * 54.0))
  | "hexagon" | "hexgon" => some (regular 6 (degree * 30.0))
  | "star" => some (polygon 5 (degree * 54.0) (degree * 144.0))
  | "diamond" => some "polygon(50% 5%, 80% 50%, 50% 95%, 20% 50%)"
  | "cross" => some cross
  | "hypocycloid" => some (hypocycloid (parameter args 3))
  | "astroid" => some (hypocycloid 4)
  | "clover" => some (clover (parameter args 3))
  | _ => none

end GridStyle.Shape
