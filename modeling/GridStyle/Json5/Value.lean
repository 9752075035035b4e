/-!
# JSON5 Values

The values that a JSON5 text denotes. The members of an object keep their order, and a key may
be given more than once; what that means is up to the reader of the value.
-/

namespace GridStyle.Json5

/-- A JSON5 value. Whole numbers written without point and power are kept apart from all other
numbers. -/
inductive Value where
  /-- `null`. -/
  | null
  /-- A truth value. -/
  | bool (value : Bool)
  /-- A whole number of 64 bits. -/
  | whole (value : Int)
  /-- Any other number. -/
  | real (value : Float)
  /-- A string. -/
  | text (value : String)
  /-- A list of values. -/
  | array (items : List Value)
  /-- Named values. -/
  | object (members : List (String × Value))

namespace Value

mutual

/-- The number of values inside a value, itself included. -/
def size : Value → Nat
  | .array items => 1 + sizeItems items
  | .object members => 1 + sizeMembers members
  | _ => 1

/-- The sizes of a list of values together. -/
def sizeItems : List Value → Nat
  | [] => 0
  | item :: items => size item + sizeItems items

/-- The sizes of named values together. -/
def sizeMembers : List (String × Value) → Nat
  | [] => 0
  | (_, value) :: members => size value + sizeMembers members

end

/-- Every value has a positive size. -/
theorem size_pos (v : Value) : 0 < v.size := by
  cases v <;> simp only [size] <;> omega

end Value

end GridStyle.Json5
