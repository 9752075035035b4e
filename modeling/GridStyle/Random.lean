/-!
# Random Numbers

A generator of 64-bit words with three shifted exclusive ors per step. The step is injective and
leaves zero where it is, and no generator starts at zero, so none gets there.
-/

namespace GridStyle

/-- The seed used when none is given. -/
def defaultSeed : UInt64 := 0x5EEDD00D1E550001

/-- A random generator: its current word. -/
structure Random where
  /-- The word that the next step starts from. -/
  state : UInt64
  deriving DecidableEq, Repr

namespace Random

/-- A generator for a seed. The seed zero, which would stay zero, stands for the default. -/
def ofSeed (seed : UInt64) : Random :=
  ⟨if seed = 0 then defaultSeed else seed⟩

/-- `x ^ (x << n)`. -/
def mixLeft (n x : UInt64) : UInt64 := x ^^^ (x <<< n)

/-- `x ^ (x >> n)`. -/
def mixRight (n x : UInt64) : UInt64 := x ^^^ (x >>> n)

/-- One step on the word. -/
def step (x : UInt64) : UInt64 := mixLeft 17 (mixRight 7 (mixLeft 13 x))

/-- Draw a word. -/
def next (r : Random) : UInt64 × Random :=
  let word := step r.state
  (word, ⟨word⟩)

/-- Draw a number from zero to below one: the 53 high bits of a word as a fraction. -/
def unit (r : Random) : Float × Random :=
  let (word, r) := r.next
  -- A double holds 53 bits, so neither number is rounded.
  ((word >>> 11).toFloat / (0x20000000000000 : UInt64).toFloat, r)

/-- Draw a number from `low` to below `high`. -/
def range (low high : Float) (r : Random) : Float × Random :=
  let (u, r) := r.unit
  (low + (high - low) * u, r)

/-- Draw a number below `length`, which is not zero. -/
def index (length : Nat) (r : Random) : Nat × Random :=
  let (word, r) := r.next
  (word.toNat % length, r)

end Random

end GridStyle
