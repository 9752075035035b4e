import GridStyle.Cell

/-!
# Function Registries

Value functions are looked up by name, custom functions before math functions. A function is
called in one of two ways, fixed when it is registered.

* An *eager* function gets the texts of its arguments.
* A *lazy* function gets its arguments unevaluated, and evaluates each as often as it likes,
  every time with inputs of its choice.

Selector predicates, which guard conditional blocks, have a registry of their own.
-/

namespace GridStyle

/-- A function on the texts of its arguments. No text is the absent result. -/
abbrev EagerFunction := Call → List String → Action (Option String)

/-- An argument that is composed on demand, with injected inputs. -/
abbrev LazyArgument := List String → Action String

/-- A function on unevaluated arguments. -/
abbrev LazyFunction := Call → List LazyArgument → Action (Option String)

/-- A predicate on the texts of its arguments. -/
abbrev Predicate := Call → List String → Action Bool

/-- A registered value function. -/
inductive Callable where
  /-- Called with texts. -/
  | eager (f : EagerFunction)
  /-- Called with unevaluated arguments. -/
  | lazy (f : LazyFunction)

/-- The function gets its arguments unevaluated. -/
def Callable.isLazy : Callable → Bool
  | .eager _ => false
  | .lazy _ => true

/-- Entries by name. -/
abbrev Named (α : Type) := List (String × α)

namespace Named

variable {α : Type}

/-- Give a name an entry in place of any it had. -/
def register (entries : Named α) (name : String) (entry : α) : Named α :=
  (name, entry) :: entries.filter fun e => e.1 != name

/-- The entry of a name. -/
def find? (entries : Named α) (name : String) : Option α := entries.lookup name

/-- The names in the order of their characters. -/
def names (entries : Named α) : List String :=
  (entries.map Prod.fst).mergeSort fun a b => a ≤ b

/-- Registering an entry changes the entry of its name and no other. -/
theorem find?_register (entries : Named α) (name other : String) (entry : α) :
    (entries.register name entry).find? other =
      if other = name then some entry else entries.find? other := by
  by_cases h : other = name
  · subst h; simp [register, find?]
  · have hne : (other == name) = false := by simpa using h
    simp only [register, find?, List.lookup_cons, hne, if_neg h]
    induction entries with
    | nil => rfl
    | cons e entries ih =>
      rcases e with ⟨key, value⟩
      by_cases hk : key = name
      · simp [hk, List.lookup_cons, hne, ih]
      · simp [hk, List.lookup_cons, ih]

end Named

/-- The value functions. -/
structure FunctionRegistry where
  /-- Functions that are looked up first. -/
  custom : Named Callable := []
  /-- Functions that are looked up after those. -/
  math : Named Callable := []

namespace FunctionRegistry

/-- Register a function on texts. -/
def registerEager (r : FunctionRegistry) (name : String) (f : EagerFunction) :
    FunctionRegistry :=
  { r with custom := r.custom.register name (.eager f) }

/-- Register a function on unevaluated arguments. -/
def registerLazy (r : FunctionRegistry) (name : String) (f : LazyFunction) : FunctionRegistry :=
  { r with custom := r.custom.register name (.lazy f) }

/-- Register a math function. -/
def registerMath (r : FunctionRegistry) (name : String) (f : EagerFunction) : FunctionRegistry :=
  { r with math := r.math.register name (.eager f) }

/-- The function of a name. -/
def find? (r : FunctionRegistry) (name : String) : Option Callable :=
  (r.custom.find? name).or (r.math.find? name)

end FunctionRegistry

/-- The selector predicates. -/
abbrev PredicateRegistry := Named Predicate

end GridStyle
