import GridStyle.Cell

/-!
# Selectors

Cells are addressed by an identifier made of their coordinates. *Special* selectors address the
host or the container, never a single cell. `:doodle` is another name of the host.
-/

namespace GridStyle.Selector

/-- The selector of the host. -/
def host : String := ":host"

/-- The class under which container rules are written. -/
def containerClass : String := ".container"

/-- What a host selector starts with. -/
def hostNames : List String := [":host", ":doodle"]

/-- What a container selector starts with. -/
def containerNames : List String := [":container", ":parent"]

/-- The identifier of a cell. -/
def cellId (cell : Cell) : String :=
  "cell-" ++ toString cell.x ++ "-" ++ toString cell.y ++ "-" ++ toString cell.z

/-- The selector of a cell with a pseudo part, which may be empty. -/
def ofCell (cell : Cell) (pseudo : String) : String :=
  "#" ++ cellId cell ++ pseudo

/-- The text that follows one of several names at the front. -/
def afterName? (names : List String) (selector : String) : Option String :=
  names.findSome? fun name =>
    if name.toList.isPrefixOf selector.toList then
      some (String.ofList (selector.toList.drop name.length))
    else none

/-- The selector starts like those of cells. -/
def isCell (selector : String) : Bool := "#cell-".toList.isPrefixOf selector.toList

/-- The selector addresses the host. -/
def isHost (selector : String) : Bool := (afterName? hostNames selector).isSome

/-- The selector addresses the container. -/
def isContainer (selector : String) : Bool := (afterName? containerNames selector).isSome

/-- The selector addresses the host or the container. -/
def isSpecial (selector : String) : Bool := isHost selector || isContainer selector

/-- Write the host's other name, with one or two colons in front, as the host's own. -/
def normalize (selector : String) : String :=
  match afterName? [":doodle", "::doodle"] selector with
  | some rest => host ++ rest
  | none => selector

/-- A name without the marker `@` in front of it. -/
def stripMarker (name : String) : String :=
  match name.toList with
  | '@' :: rest => String.ofList rest
  | _ => name

/-- Every cell selector is one of a cell. -/
theorem isCell_ofCell (cell : Cell) (pseudo : String) : isCell (ofCell cell pseudo) = true := by
  simp [isCell, ofCell, cellId, String.toList_append, List.isPrefixOf]

end GridStyle.Selector
