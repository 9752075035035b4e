/-!
# TOML Values

The values of a TOML document. A table remembers how it came about, because that decides whether
later lines may still add to it.
-/

namespace GridStyle.Toml

/-- How a table came about. -/
inductive Origin where
  /-- By a header of its own, or as the document. -/
  | header
  /-- As a part of the name in another table's header. -/
  | implied
  /-- As a part of a dotted key. -/
  | dotted
  /-- Between braces. -/
  | braces
  deriving DecidableEq, Repr

/-- A TOML value. -/
inductive Value where
  /-- A string. -/
  | text (value : String)
  /-- A whole number of 64 bits. -/
  | whole (value : Int)
  /-- A number with a fraction or an exponent, infinity or NaN. -/
  | real (value : Float)
  /-- A truth value. -/
  | bool (value : Bool)
  /-- A date, a time, or both. -/
  | moment (text : String)
  /-- A list between brackets. -/
  | array (items : List Value)
  /-- The tables of repeated headers, the last one first. It is not empty. -/
  | tables (items : List (List (String × Value)))
  /-- A table, its keys in order. -/
  | table (origin : Origin) (entries : List (String × Value))

/-- The keys and values of a table. -/
abbrev Entries := List (String × Value)

end GridStyle.Toml
