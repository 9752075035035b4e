import GridStyle.Selector
import Std.Data.HashMap

/-!
# Rule Store

The declarations that were composed so far, by selector. Selectors are kept in the order in which
they first got a declaration, and declarations in the order in which they came.

## Main definitions

* `RuleStore.push`: one more declaration.
* `RuleStore.dropCells`: the reset between two passes.
* `RuleStore.toList`: the view through which the others are described.
-/

namespace GridStyle

/-- Declarations by selector. -/
structure RuleStore where
  /-- The selectors in the order of their first declarations. -/
  order : Array String := #[]
  /-- The declarations of every selector in `order`. -/
  buckets : Std.HashMap String (Array String) := {}

namespace RuleStore

/-- Add a declaration to a selector. An empty text is none. -/
def push (s : RuleStore) (selector declaration : String) : RuleStore :=
  if declaration.isEmpty then s
  else
    -- The parts are taken out of the store, so that they can change in place.
    match s with
    | ⟨order, buckets⟩ =>
      let order := if buckets.contains selector then order else order.push selector
      ⟨order, buckets.alter selector fun bucket => some ((bucket.getD #[]).push declaration)⟩

/-- The declarations of a selector. -/
def get? (s : RuleStore) (selector : String) : Option (List String) :=
  s.buckets[selector]?.map Array.toList

/-- The selectors in order, each with its declarations. -/
def toList (s : RuleStore) : List (String × List String) :=
  s.order.toList.filterMap fun selector => (s.get? selector).map fun bucket => (selector, bucket)

/-- Forget the declarations of cells. Those of the host and of the container stay. -/
def dropCells (s : RuleStore) : RuleStore :=
  ⟨s.order.filter fun selector => !Selector.isCell selector,
    s.buckets.filter fun selector _ => !Selector.isCell selector⟩

/-- The number of selectors. -/
def size (s : RuleStore) : Nat := s.order.size

/-- Nothing was composed. -/
def isEmpty (s : RuleStore) : Bool := s.order.isEmpty

/-- An empty text changes nothing. -/
@[simp]
theorem push_empty (s : RuleStore) (selector : String) : s.push selector "" = s := rfl

end RuleStore

end GridStyle
