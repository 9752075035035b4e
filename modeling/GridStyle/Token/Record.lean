import GridStyle.Json5.Value

/-!
# Records in Values

How structures are laid out in JSON5 values. A *record* with named fields is either an object or
an array of the fields in order. In an object unknown members are ignored and a known one may be
given once; in an array trailing fields may be left out, and there may not be more items than
fields. A *tagged* record has its kind in front: in the member `type`, or as the first item.
-/

namespace GridStyle.Json5.Value

/-- The member of an object with a given name; `none` if it is given twice. -/
def member? (name : String) (members : List (String × Value)) : Option (Option Value) :=
  match members.filter fun m => m.1 == name with
  | [] => some none
  | [m] => some (some m.2)
  | _ => none

/-- The named fields of an object. -/
def objectFields (names : List String) (members : List (String × Value)) :
    Option (List (Option Value)) :=
  names.mapM fun name => member? name members

/-- The fields of an array in order, absent ones at the end. -/
def arrayFields : List String → List Value → Option (List (Option Value))
  | [], [] => some []
  | [], _ :: _ => none
  | _ :: names, [] => (arrayFields names []).map (none :: ·)
  | _ :: names, item :: items => (arrayFields names items).map (some item :: ·)

/-- The fields of a record in the order of the names. -/
def fields (names : List String) : Value → Option (List (Option Value))
  | .object members => objectFields names members
  | .array items => arrayFields names items
  | _ => none

/-- The kind of a tagged record and the record without it. -/
def tagged : Value → Option (String × Value)
  | .object members =>
    match member? "type" members with
    | some (some (.text kind)) => some (kind, .object (members.filter fun m => m.1 != "type"))
    | _ => none
  | .array (.text kind :: items) => some (kind, .array items)
  | _ => none

/-- A string. -/
def text? : Value → Option String
  | .text value => some value
  | _ => none

/-- A list. -/
def array? : Value → Option (List Value)
  | .array items => some items
  | _ => none

/-- A whole number that is not negative. -/
def natural? : Value → Option Nat
  | .whole (.ofNat n) => some n
  | _ => none

/-- A truth value. -/
def bool? : Value → Option Bool
  | .bool value => some value
  | _ => none

end GridStyle.Json5.Value
