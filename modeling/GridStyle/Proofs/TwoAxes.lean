import GridStyle.Proofs.ShorthandWords

/-!
# Notations of Two Axes

A value with two axes is written as two words, as a list of two items, or in two value groups. A
list is cut at commas and read with backslashes that protect, words are cut at blanks and read
without them. On texts without backslashes the two scans stand at the same places
(`Nesting.scan_escapes`), so whatever the notation, the same two axes are read
(`Directive.axes_of_mem_spellings`) and the same text is composed from them
(`two_axes_read_alike`).

An axis can be any text that closes what it opens and has its commas and blanks inside of that
(`IsAxis`), such as a calculation.
-/

namespace GridStyle

open Expanding Text

namespace Text

open Nesting

/-! ### Texts without backslashes -/

/-- Only a backslash is read differently by the two scans. -/
theorem Nesting.advance_escapes {c : Char} (hc : c ≠ '\x5c') (s : Nesting) :
    s.advance true c = s.advance false c := by
  have hnot : (c == '\x5c') = false := by simpa using hc
  rw [advance, advance, hnot, Bool.and_false, Bool.and_false]

/-- Without backslashes the two scans stand at the same place. -/
theorem Nesting.scan_escapes {cs : List Char} (h : '\x5c' ∉ cs) (s : Nesting) :
    s.scan true cs = s.scan false cs := by
  induction cs generalizing s with
  | nil => rfl
  | cons c cs ih =>
    rw [List.mem_cons, not_or] at h
    rw [scan, scan, List.foldl_cons, List.foldl_cons, advance_escapes (Ne.symm h.1)]
    exact ih h.2 _

/-- A text has no blanks at its ends if no blank in it is at the top level, where it also ends. -/
theorem trim_of_whole {cs : List Char} (hwhole : Whole atBlanks {} cs)
    (htop : (scan false {} cs).atTop = true) : trim cs = cs := by
  refine trim_eq_self_iff.2 ⟨fun hne hblank => ?_, fun hne hblank => ?_⟩
  · obtain ⟨c, cs, rfl⟩ := List.exists_cons_of_ne_nil hne
    exact absurd (hwhole.1 hblank) (by decide)
  · obtain ⟨front, c, rfl⟩ := (List.eq_nil_or_concat' cs).resolve_left hne
    rw [List.getLast_append_singleton] at hblank
    -- A blank leaves the scan where it is, so it would be at the top level.
    have hinside : (!(scan false {} front).atTop) = true :=
      ((separatesAt_append _ _ _).1 hwhole).2.1 hblank
    rw [scan_append, scan_eq_self (by simpa using not_mem_marks_of_isBlank hblank)
      (escaped_scan rfl front)] at htop
    rw [htop] at hinside
    exact absurd hinside (by decide)

/-! ### Axes -/

/-- A text that can be an axis: it is not empty, has no backslash, and closes the quotes and
parentheses that it opens, with all its commas and blanks inside of them. -/
structure IsAxis (text : String) : Prop where
  /-- There is something. -/
  ne_empty : text ≠ ""
  /-- Nothing is protected. -/
  noBackslash : '\x5c' ∉ text.toList
  /-- No comma is at the top level. -/
  commas : Whole atCommas {} text.toList
  /-- No blank is at the top level. -/
  blanks : Whole atBlanks {} text.toList
  /-- In the end no quote and no parenthesis is open. -/
  atTop : (scan true {} text.toList).atTop = true

instance : DecidablePred IsAxis := fun text =>
  decidable_of_iff (text ≠ "" ∧ '\x5c' ∉ text.toList ∧ Whole atCommas {} text.toList ∧
      Whole atBlanks {} text.toList ∧ (scan true {} text.toList).atTop = true)
    ⟨fun h => ⟨h.1, h.2.1, h.2.2.1, h.2.2.2.1, h.2.2.2.2⟩, fun h => ⟨h.1, h.2, h.3, h.4, h.5⟩⟩

namespace IsAxis

variable {a b : String}

theorem atTop_of_words (h : IsAxis a) : (scan false {} a.toList).atTop = true :=
  scan_escapes h.noBackslash {} ▸ h.atTop

theorem isListPart (h : IsAxis a) : IsListPart a :=
  ⟨h.ne_empty, trim_of_whole h.blanks h.atTop_of_words, h.commas, h.atTop⟩

theorem isWord (h : IsAxis a) : IsPart atBlanks a.toList :=
  ⟨h.isListPart.isPart.ne_nil, h.isListPart.trimmed, h.blanks⟩

/-- Two axes with a space in between are two words. -/
theorem splitWords_eq (ha : IsAxis a) (hb : IsAxis b) : splitWords (a ++ " " ++ b) = [a, b] := by
  have hstay : StayWords [a, b] := by
    refine ⟨?_, ?_⟩
    · simpa using ⟨ha.isWord, hb.isWord⟩
    · simpa using ha.atTop_of_words
  have hwords := hstay.splitWords_intercalate
  rwa [String.intercalate_cons_cons, String.intercalate_singleton] at hwords

/-- They are one item of a list. -/
theorem length_splitGroup_le (ha : IsAxis a) (hb : IsAxis b) :
    (splitGroup (a ++ " " ++ b)).length ≤ 1 := by
  have hwhole : Whole atCommas {} (a.toList ++ ' ' :: b.toList) := by
    rw [Whole, separatesAt_append, show scan atCommas.escapes {} a.toList = {} from
      eq_start_of_atTop ha.atTop]
    exact ⟨ha.commas, by decide, hb.commas⟩
  have htext : (a ++ " " ++ b).toList = a.toList ++ ' ' :: b.toList := by
    simp [String.toList_append]
  rw [splitGroup, htext, split_of_whole hwhole, List.length_map, tidy]
  exact List.length_filter_le _ _

/-- Two axes with a comma in between, and maybe a blank, are two items of a list. -/
theorem splitGroup_eq (ha : IsAxis a) (hb : IsAxis b) {separator : String}
    (hseparator : separator = ", " ∨ separator = ",") :
    splitGroup (a ++ separator ++ b) = [a, b] := by
  obtain ⟨blanks, hblanks, rfl⟩ : ∃ blanks : List Char, (∀ c ∈ blanks, isBlank c = true) ∧
      String.ofList (',' :: blanks) = separator := by
    rcases hseparator with rfl | rfl
    · exact ⟨[' '], forall_mem_of_all (by decide), rfl⟩
    · exact ⟨[], by simp, rfl⟩
  have hparts : ∀ item ∈ [a, b], IsListPart item := by simpa using ⟨ha.isListPart, hb.isListPart⟩
  have hitems := splitGroup_intercalate hparts hblanks
  rwa [String.intercalate_cons_cons, String.intercalate_singleton] at hitems

end IsAxis

end Text

namespace Directive

/-- The texts of the value groups that write two axes: two words, a list with or without a blank
behind the comma, and two groups. -/
def spellings (a b : String) : List (List String) :=
  [[a ++ " " ++ b], [a ++ ", " ++ b], [a ++ "," ++ b], [a, b]]

variable {a b : String}

/-- In every notation the axes are read that were written. -/
theorem axes_of_mem_spellings (ha : IsAxis a) (hb : IsAxis b) {texts : List String}
    (htexts : texts ∈ spellings a b) : axes (String.intercalate ", " texts) = [a, b] := by
  have hlist : ∀ separator, separator = ", " ∨ separator = "," →
      axes (a ++ separator ++ b) = [a, b] := by
    intro separator hseparator
    rw [axes, ha.splitGroup_eq hb hseparator]
    rfl
  simp only [spellings, List.mem_cons, List.not_mem_nil, or_false] at htexts
  rcases htexts with rfl | rfl | rfl | rfl
  · have hone := ha.length_splitGroup_le hb
    rw [String.intercalate_singleton, axes, ha.splitWords_eq hb, if_neg (by omega)]
  · rw [String.intercalate_singleton, hlist _ (.inl rfl)]
  · rw [String.intercalate_singleton, hlist _ (.inr rfl)]
  · rw [String.intercalate_cons_cons, String.intercalate_singleton, hlist _ (.inl rfl)]

/-- Declarations of two properties with an axis each. -/
def declareBoth (first second a b : String) : String := declare first a ++ " " ++ declare second b

/-- The text of a directive with two axes under a selector. -/
def axesText (selector : Option String) (a b : String) : String → String
  | "@size" =>
    declareBoth "width" "height" a b ++
      if selector.any Selector.isSpecial then ""
      else " " ++ declareBoth (internalSize "width") (internalSize "height") a b
  | "@min-size" => declareBoth "min-width" "min-height" a b
  | "@max-size" => declareBoth "max-width" "max-height" a b
  | "@place-cell" =>
    if selector.any Selector.isHost then ""
    else String.intercalate " "
      [declare "position" "absolute", declareBoth "left" "top" (leftOf a) (topOf b),
        declareBoth "width" "height" cellWidth cellHeight,
        declareBoth "margin-left" "margin-top" (backHalf cellWidth) (backHalf cellHeight),
        declare "grid-area" "unset !important"]
  | _ => ""

/-- The directives with two axes. -/
def ofTwoAxes : List String := ["@size", "@min-size", "@max-size", "@place-cell"]

/-- A directive with two axes makes the same text of all values with these axes. -/
theorem propertyText_of_axes (kit : Toolkit) (selector : Option String) {property : String}
    (hproperty : property ∈ ofTwoAxes) {value : String} (haxes : axes value = [a, b]) :
    propertyText kit (PropertyKind.ofName property) selector property value =
      axesText selector a b property := by
  have hpair : pair? value = some (a, b) := by rw [pair?, haxes]
  simp only [ofTwoAxes, List.mem_cons, List.not_mem_nil, or_false] at hproperty
  rcases hproperty with rfl | rfl | rfl | rfl
  · cases hspecial : selector.any Selector.isSpecial <;>
      simp [propertyText, apply, sizing, hpair, axesText, declareBoth, hspecial,
        PropertyKind.ofName, String.append_assoc]
  · simp [propertyText, apply, sizing, hpair, axesText, declareBoth, PropertyKind.ofName]
  · simp [propertyText, apply, sizing, hpair, axesText, declareBoth, PropertyKind.ofName]
  · cases hhost : selector.any Selector.isHost <;>
      simp [propertyText, apply, placement, hpair, axesText, declareBoth, hhost,
        PropertyKind.ofName, String.intercalate_cons_cons, String.append_assoc]

end Directive

namespace Expanding

variable {a b property : String} (kit : Toolkit) (cell : Cell) (selector : Option String)

/-- A directive with two axes composes its value and nothing else, and its text is made of the axes
of that value. -/
theorem perform_composeRule_axes (hproperty : property ∈ Directive.ofTwoAxes)
    {value : List ValueGroup} {texts : List String} {s : Expansion} {c : Context}
    (hvalue : (groupTexts kit.functions cell value).perform s.context = (.ok texts, c))
    (haxes : Directive.axes (String.intercalate ", " texts) = [a, b]) (styles : List Token) :
    (composeRule kit cell selector ⟨property, value, styles⟩).perform s =
      (.ok (Directive.axesText selector a b property), s.withContext c) := by
  have huse : property ≠ "@use" := by
    rintro rfl
    exact absurd hproperty (by decide)
  have hgrid : property ≠ "@grid" := by
    rintro rfl
    exact absurd hproperty (by decide)
  -- None of the directives with two axes is the grid or a kind with a value of its own.
  have hkind : PropertyKind.ofName property = .directive ∨
      PropertyKind.ofName property = .placeCell := by
    simp only [Directive.ofTwoAxes, List.mem_cons, List.not_mem_nil, or_false] at hproperty
    rcases hproperty with rfl | rfl | rfl | rfl
    all_goals decide
  have hjoined : propertyValue (PropertyKind.ofName property) cell texts =
      String.intercalate ", " texts := by
    rcases hkind with hkind | hkind <;> rw [hkind] <;> rfl
  have hnote : ∀ t : Expansion, t.apply (.note (PropertyKind.ofName property)) = t := by
    rcases hkind with hkind | hkind <;> rw [hkind] <;> exact fun t => rfl
  refine (perform_composeRule_ok kit cell huse).2 ⟨texts, c, hvalue, ?_, ?_⟩
  · rw [hjoined, Directive.propertyText_of_axes kit selector hproperty haxes]
  · rw [hnote, gridChanges, if_neg hgrid, Expansion.applyAll_nil]

end Expanding

/-- A directive with two axes reads the same axes however they are spelled, first the one that is
written first, and composes the same text from them under every selector. -/
theorem two_axes_read_alike {a b : String} (ha : IsAxis a) (hb : IsAxis b) {property : String}
    (hproperty : property ∈ Directive.ofTwoAxes) {texts : List String}
    (htexts : texts ∈ Directive.spellings a b) (kit : Toolkit) (cell : Cell)
    (selector : Option String) (styles : List Token) (s : Expansion) :
    Directive.axes (String.intercalate ", " texts) = [a, b] ∧
      (composeRule kit cell selector
        ⟨property, texts.map fun text => [.text text], styles⟩).perform s =
          (.ok (Directive.axesText selector a b property), s) := by
  have haxes := Directive.axes_of_mem_spellings ha hb htexts
  have hne : ∀ text ∈ texts, text ≠ "" := by
    simp only [Directive.spellings, List.mem_cons, List.not_mem_nil, or_false] at htexts
    rcases htexts with rfl | rfl | rfl | rfl <;> simp [ha.ne_empty, hb.ne_empty]
  exact ⟨haxes, perform_composeRule_axes kit cell selector hproperty
    (perform_groupTexts_texts hne s.context) haxes styles⟩

/-- A function with commas and blanks beside one with a quoted parenthesis, in all spellings. -/
theorem two_axes_read_alike_nested :
    let a := "max(1px, (2px + 3%) / 2)"
    let b := "var(--h, 'a (b, c')"
    IsAxis a ∧ IsAxis b ∧ ∀ texts ∈ Directive.spellings a b,
      Directive.axes (String.intercalate ", " texts) = [a, b] ∧
      (composeRule .builtin ⟨1, 2, 1, 2, ⟨1, 2, 1⟩⟩ (some ":host")
        ⟨"@size", texts.map fun text => [.text text], []⟩).perform (.ofSeed 1) =
          (.ok ("width: max(1px, (2px + 3%) / 2); " ++
            "height: var(--h, 'a (b, c');"), .ofSeed 1) := by
  intro a b
  have ha : IsAxis a := by decide +kernel
  have hb : IsAxis b := by decide +kernel
  have hsize : "@size" ∈ Directive.ofTwoAxes := by decide
  have htext : Directive.axesText (some ":host") a b "@size" =
      "width: max(1px, (2px + 3%) / 2); " ++ "height: var(--h, 'a (b, c');" := by decide +kernel
  refine ⟨ha, hb, fun texts htexts => ?_⟩
  rw [← htext]
  exact two_axes_read_alike ha hb hsize htexts .builtin _ (some ":host") [] (.ofSeed 1)

end GridStyle
