/-!
# Vendor Prefixes

Some properties are understood by some engines only under a prefixed name. Their declarations
are written twice, the prefixed one first.
-/

namespace GridStyle

/-- How declarations are written. -/
inductive Prefixing where
  /-- As they are. -/
  | none
  /-- Also with a prefix where an engine needs one. -/
  | vendor
  deriving DecidableEq, Repr

namespace Prefixing

/-- The properties that some engines know by a prefixed name only. -/
def prefixedProperties : List String :=
  ["clip-path", "mask", "mask-image", "mask-size", "mask-position", "mask-repeat",
    "backdrop-filter", "box-reflect", "text-stroke", "text-fill-color", "user-select",
    "appearance"]

/-- The name of the engines' prefix. -/
def vendorPrefix : String := "-webkit-"

/-- Write a declaration of a property, which is doubled only if it starts with the property. -/
def write (prefixing : Prefixing) (property declaration : String) : String :=
  match prefixing with
  | .none => declaration
  | .vendor =>
    if property ∈ prefixedProperties ∧
        property.toList.isPrefixOf declaration.toList then
      vendorPrefix ++ declaration ++ " " ++ declaration
    else declaration

end Prefixing

end GridStyle
