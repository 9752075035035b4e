import GridStyle.Toml.Value

/-!
# Building Tables

How the lines of a document add to its tables. No key is given twice. A table gets one header at
most; one that only occurred in the names of other headers may still get its own. Dotted keys add
to tables that were made by dotted keys, and a header may name a table below such a one. Tables
between braces are complete.

Every function gives `none` for an addition that is not allowed.

## Main definitions

* `insert`: a value under a dotted key.
* `descend`: a change in the table that the names of a header lead to.
* `openTable` and `openRepeated`: the two kinds of headers.
-/

namespace GridStyle.Toml

/-- Change the value of a key, which may be absent, and keep its place. -/
def alter (f : Option Value → Option Value) (key : String) : Entries → Option Entries
  | [] => (f none).map fun value => [(key, value)]
  | (other, value) :: rest =>
    if other = key then (f (some value)).map fun value => (key, value) :: rest
    else (alter f key rest).map ((other, value) :: ·)

/-- Give a key a value, which may not have one. -/
def addNew (value : Value) : Option Value → Option Value
  | none => some value
  | some _ => none

/-- Add a value under a dotted key to a table. Dotted keys end in tables of dotted keys only. -/
def insert (key : String) (value : Value) : List String → Entries → Option Entries
  | [], entries => alter (addNew value) key entries
  -- The last table must be one of dotted keys, while those on the way may come from headers.
  | [last], entries =>
    alter (fun
      | none => some (.table .dotted [(key, value)])
      | some (.table .dotted inner) =>
        (alter (addNew value) key inner).map (.table .dotted)
      | some _ => none) last entries
  | name :: next :: rest, entries =>
    alter (fun
      | none => (insert key value (next :: rest) []).map (.table .dotted)
      | some (.table .dotted inner) =>
        (insert key value (next :: rest) inner).map (.table .dotted)
      | some (.table .implied inner) =>
        (insert key value (next :: rest) inner).map (.table .implied)
      | some (.tables (inner :: before)) =>
        (insert key value (next :: rest) inner).map fun inner => .tables (inner :: before)
      | some _ => none) name entries

/-- Do something in the table that the names of a header lead to, from a table on. Absent tables
are implied, and of repeated tables the last one is meant. -/
def descend (f : Entries → Option Entries) : List String → Entries → Option Entries
  | [], entries => f entries
  | name :: rest, entries =>
    alter (fun
      | none => (descend f rest []).map (.table .implied)
      | some (.table .braces _) => none
      | some (.table origin inner) => (descend f rest inner).map (.table origin)
      | some (.tables (inner :: before)) =>
        (descend f rest inner).map fun inner => .tables (inner :: before)
      | some _ => none) name entries

/-- Open the table of a header. -/
def openTable (key : String) (path : List String) : Entries → Option Entries :=
  descend (alter (fun
    | none => some (.table .header [])
    | some (.table .implied inner) => some (.table .header inner)
    | some _ => none) key) path

/-- Open another table of a repeated header. -/
def openRepeated (key : String) (path : List String) : Entries → Option Entries :=
  descend (alter (fun
    | none => some (.tables [[]])
    | some (.tables before) => some (.tables ([] :: before))
    | some _ => none) key) path

/-- The table of distinct dotted keys with values, as it is written between braces. -/
def ofPairs (pairs : List ((List String × String) × Value)) : Option Entries :=
  pairs.foldlM (fun entries pair => insert pair.1.2 pair.2 pair.1.1 entries) []

end GridStyle.Toml
