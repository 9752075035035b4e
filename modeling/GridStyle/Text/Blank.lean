/-!
# Blank Characters

The characters that count as white space, and the trimming and dropping of them. Everything in
this library that skips, trims or splits at white space uses this one class: the code points
with the Unicode property `White_Space`.

Texts are handled as lists of characters; `String` versions stand beside the list versions.
-/

namespace GridStyle.Text

/-- The code points with the property `White_Space`, as closed ranges in increasing order. -/
def blankRanges : List (Nat × Nat) :=
  [(0x09, 0x0D), (0x20, 0x20), (0x85, 0x85), (0xA0, 0xA0), (0x1680, 0x1680), (0x2000, 0x200A),
    (0x2028, 0x2029), (0x202F, 0x202F), (0x205F, 0x205F), (0x3000, 0x3000)]

/-- Whether a character is white space. -/
def isBlank (c : Char) : Bool :=
  blankRanges.any fun range => range.1 ≤ c.toNat && c.toNat ≤ range.2

/-- Remove the blanks at both ends. -/
def trim (cs : List Char) : List Char :=
  ((cs.dropWhile isBlank).reverse.dropWhile isBlank).reverse

/-- Remove every blank, wherever it stands. -/
def dropBlanks (cs : List Char) : List Char :=
  cs.filter fun c => !isBlank c

/-- `trim` on strings. -/
def trimText (text : String) : String :=
  String.ofList (trim text.toList)

/-- A text of blanks alone is trimmed to nothing. -/
theorem trim_eq_nil_of_all {cs : List Char} (h : ∀ c ∈ cs, isBlank c = true) : trim cs = [] := by
  have : cs.dropWhile isBlank = [] := by
    induction cs with
    | nil => rfl
    | cons c cs ih => simp_all
  simp [trim, this]

end GridStyle.Text
