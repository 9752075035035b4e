import GridStyle.Expansion.Tree
import GridStyle.Proofs.Digits
import GridStyle.Proofs.Trimming

/-!
# Selectors of Blocks

Facts on the selectors that walks compose for. Host and special selectors are told from their first
characters (`isHost_iff`, `isSpecial_iff`), so no selector of a cell is one. Writing the host's
other name as its own (`Selector.normalize`) is done after one time. The selectors of different
cells are different (`ofCell_inj`). A selector without commas and outer blanks is its own only part
(`selectorParts_of_isSingle`), and a list of special parts is special (`IsSpecialList`).
-/

namespace GridStyle

/-! ### Special selectors -/

namespace Selector

theorem isSome_afterName?_iff {names : List String} {selector : String} :
    (afterName? names selector).isSome = true ↔
      ∃ name ∈ names, name.toList <+: selector.toList := by
  rw [afterName?, List.findSome?_isSome_iff]
  simp [ List.isPrefixOf_iff_prefix]

/-- What follows a name at the front makes up the selector with it. -/
theorem toList_eq_of_afterName? {names : List String} {selector rest : String}
    (h : afterName? names selector = some rest) :
    ∃ name ∈ names, selector.toList = name.toList ++ rest.toList := by
  obtain ⟨name, hname, hrest⟩ := List.exists_of_findSome?_eq_some h
  split at hrest
  · next hpre =>
    obtain ⟨tail, htail⟩ := List.isPrefixOf_iff_prefix.1 hpre
    rw [Option.some.injEq] at hrest
    refine ⟨name, hname, ?_⟩
    rw [← hrest, ← htail, String.toList_ofList, ← String.length_toList, List.drop_left]
  · exact absurd hrest (by simp)

/-- Host selectors start with one of the host's names. -/
theorem isHost_iff {selector : String} :
    isHost selector = true ↔ ∃ name ∈ hostNames, name.toList <+: selector.toList :=
  isSome_afterName?_iff

/-- Special selectors start with a name of the host or of the container. -/
theorem isSpecial_iff {selector : String} :
    isSpecial selector = true ↔
      ∃ name ∈ hostNames ++ containerNames, name.toList <+: selector.toList := by
  rw [isSpecial, Bool.or_eq_true, isHost_iff, isContainer, isSome_afterName?_iff]
  simp only [List.mem_append, or_and_right, exists_or]

theorem isSpecial_of_isHost {selector : String} (h : isHost selector = true) :
    isSpecial selector = true := by
  rw [isSpecial, h, Bool.true_or]

/-- No name of the container starts like one of the host. -/
theorem isContainer_eq_false_of_isHost {selector : String} (h : isHost selector = true) :
    isContainer selector = false := by
  rw [isHost_iff] at h
  obtain ⟨name, hname, rest, hrest⟩ := h
  rw [← Bool.not_eq_true, isContainer, isSome_afterName?_iff, ← hrest]
  simp only [hostNames, List.mem_cons, List.not_mem_nil, or_false] at hname
  obtain rfl | rfl := hname <;> simp [containerNames]

/-- The selectors of cells start with another character. -/
theorem toList_ofCell (cell : Cell) (pseudo : String) :
    ∃ rest, (ofCell cell pseudo).toList = "#cell-".toList ++ rest :=
  ⟨_, by simp only [ofCell, cellId, String.toList_append, List.append_assoc]; rfl⟩

/-- No selector of a cell is special. -/
theorem isSpecial_ofCell (cell : Cell) (pseudo : String) :
    isSpecial (ofCell cell pseudo) = false := by
  rw [← Bool.not_eq_true, isSpecial_iff]
  obtain ⟨rest, hrest⟩ := toList_ofCell cell pseudo
  rw [hrest]
  simp [hostNames, containerNames]

/-- No selector of a cell is one of the host. -/
theorem isHost_ofCell (cell : Cell) (pseudo : String) : isHost (ofCell cell pseudo) = false := by
  have hspecial := isSpecial_ofCell cell pseudo
  rw [isSpecial, Bool.or_eq_false_iff] at hspecial
  exact hspecial.1

/-- No special selector starts like those of cells. -/
theorem isCell_eq_false_of_isSpecial {selector : String} (h : isSpecial selector = true) :
    isCell selector = false := by
  rw [← Bool.not_eq_true, isCell, List.isPrefixOf_iff_prefix]
  rintro ⟨rest, hrest⟩
  rw [isSpecial_iff, ← hrest] at h
  simp [hostNames, containerNames] at h

/-! ### The host's other name -/

/-- A selector is written as it is, or its front is the host's other name and is replaced. -/
theorem normalize_cases (selector : String) :
    normalize selector = selector ∧ afterName? [":doodle", "::doodle"] selector = none ∨
      ∃ other ∈ [":doodle", "::doodle"], ∃ rest, selector.toList = other.toList ++ rest ∧
        (normalize selector).toList = host.toList ++ rest := by
  unfold normalize
  cases hafter : afterName? [":doodle", "::doodle"] selector with
  | none => exact .inl ⟨rfl, rfl⟩
  | some rest =>
    obtain ⟨other, hother, heq⟩ := toList_eq_of_afterName? hafter
    exact .inr ⟨other, hother, rest.toList, heq, by simp⟩

theorem isHost_of_toList_eq {selector : String} {rest : List Char}
    (h : selector.toList = host.toList ++ rest) : isHost selector = true :=
  isHost_iff.2 ⟨":host", by simp [hostNames], rest, h.symm⟩

/-- Only special selectors are written in another way. -/
theorem normalize_eq_self_of_not_special {selector : String}
    (h : ¬ isSpecial (normalize selector) = true) : normalize selector = selector := by
  obtain ⟨heq, -⟩ | ⟨other, hother, rest, -, hhost⟩ := normalize_cases selector
  · exact heq
  · exact absurd (isSpecial_of_isHost (isHost_of_toList_eq hhost)) h

/-- Writing the host's other name as its own twice is doing it once. -/
theorem normalize_normalize (selector : String) :
    normalize (normalize selector) = normalize selector := by
  obtain ⟨heq, -⟩ | ⟨other, hother, rest, -, hhost⟩ := normalize_cases selector
  · rw [heq, heq]
  · obtain ⟨heq, -⟩ | ⟨other', hother', rest', hrest', -⟩ := normalize_cases (normalize selector)
    · exact heq
    · -- The host's own name does not start with the other one.
      rw [hhost] at hrest'
      simp only [List.mem_cons, List.not_mem_nil, or_false] at hother'
      obtain rfl | rfl := hother' <;> simp [host] at hrest'

/-- The host's other name in front is replaced by the host's own. -/
theorem normalize_of_other {other : String} (hother : other ∈ [":doodle", "::doodle"])
    (rest : List Char) :
    normalize (String.ofList (other.toList ++ rest)) = String.ofList (host.toList ++ rest) := by
  have hafter : afterName? [":doodle", "::doodle"] (String.ofList (other.toList ++ rest)) =
      some (String.ofList rest) := by
    simp only [List.mem_cons, List.not_mem_nil, or_false] at hother
    obtain rfl | rfl := hother <;> simp [afterName?] <;> rfl
  simp only [normalize, hafter]
  rw [String.ofList_append, String.ofList_toList]

/-- Special selectors are told from their first characters, also in the host's other name. -/
theorem isSpecial_normalize_iff {selector : String} :
    isSpecial (normalize selector) = true ↔
      ∃ name ∈ "::doodle" :: (hostNames ++ containerNames), name.toList <+: selector.toList := by
  constructor
  · intro h
    obtain ⟨heq, -⟩ | ⟨other, hother, rest, hrest, -⟩ := normalize_cases selector
    · rw [heq, isSpecial_iff] at h
      obtain ⟨name, hname, hpre⟩ := h
      exact ⟨name, List.mem_cons_of_mem _ hname, hpre⟩
    · refine ⟨other, ?_, rest, hrest.symm⟩
      simp only [List.mem_cons, List.not_mem_nil, or_false] at hother
      obtain rfl | rfl := hother <;> simp [hostNames]
  · rintro ⟨name, hname, hpre⟩
    obtain ⟨heq, hnone⟩ | ⟨other, hother, rest, -, hhost⟩ := normalize_cases selector
    · rw [heq, isSpecial_iff]
      refine ⟨name, (List.mem_cons.1 hname).resolve_left ?_, hpre⟩
      rintro rfl
      have hsome : (afterName? [":doodle", "::doodle"] selector).isSome = true :=
        isSome_afterName?_iff.2 ⟨"::doodle", by simp, hpre⟩
      rw [hnone] at hsome
      exact absurd hsome (by decide)
    · exact isSpecial_of_isHost (isHost_of_toList_eq hhost)

/-! ### Selectors of cells -/

/-- The text does not start with a decimal digit. -/
def NoDigitFirst (text : String) : Prop := ∀ c ∈ text.toList.head?, c.isDigit = false

theorem noDigitFirst_empty : NoDigitFirst "" := by
  intro c hc
  rw [String.toList_empty] at hc
  exact absurd hc (Option.not_mem_none c)

/-- The selectors of cells at different places are different, and so are those of one cell with
different pseudo parts, unless the parts start with digits. -/
theorem ofCell_inj {cell cell' : Cell} {part part' : String} (hpart : NoDigitFirst part)
    (hpart' : NoDigitFirst part') (h : ofCell cell part = ofCell cell' part') :
    cell.x = cell'.x ∧ cell.y = cell'.y ∧ cell.z = cell'.z ∧ part = part' := by
  have hdash : ∀ rest : List Char, ∀ c ∈ ('-' :: rest).head?, c.isDigit = false := by
    simp
  have htext : ∀ (cell : Cell) (part : String), (ofCell cell part).toList =
      "#cell-".toList ++ ((toString cell.x).toList ++ '-' :: ((toString cell.y).toList ++
        '-' :: ((toString cell.z).toList ++ part.toList))) := by
    intro cell part
    simp [ofCell, cellId, String.toList_append]
  -- The numbers are read off one after the other.
  rw [← String.toList_inj, htext, htext, List.append_cancel_left_eq] at h
  obtain ⟨hx, h⟩ := Text.toString_append_inj (hdash _) (hdash _) h
  obtain ⟨hy, h⟩ := Text.toString_append_inj (hdash _) (hdash _) (List.cons.inj h).2
  obtain ⟨hz, h⟩ := Text.toString_append_inj hpart hpart' (List.cons.inj h).2
  exact ⟨hx, hy, hz, String.toList_inj.1 h⟩

/-! ### Single selectors -/

/-- A selector that is no list and has no blanks at its ends. -/
def IsSingle (selector : String) : Prop :=
  ',' ∉ selector.toList ∧ Text.trim selector.toList = selector.toList

instance (selector : String) : Decidable (IsSingle selector) :=
  inferInstanceAs (Decidable (_ ∧ _))

theorem IsSingle.normalize {selector : String} (h : IsSingle selector) :
    IsSingle (normalize selector) := by
  obtain ⟨heq, -⟩ | ⟨other, hother, rest, hrest, hhost⟩ := normalize_cases selector
  · rw [heq]
    exact h
  · obtain ⟨hcomma, htrim⟩ := h
    rw [hrest] at hcomma htrim
    rw [IsSingle, hhost]
    refine ⟨?_, Text.trim_eq_self_iff.2 ⟨fun _ => ?_, fun hne => ?_⟩⟩
    · rw [List.mem_append, not_or] at hcomma ⊢
      exact ⟨by simp [host], hcomma.2⟩
    · simp [host, Text.isBlank, Text.blankRanges]
    · have hlast := (Text.trim_eq_self_iff.1 htrim).2
      cases rest using List.reverseRecOn with
      | nil => simp [host, Text.isBlank, Text.blankRanges]
      | append_singleton rest c =>
        rw [← List.append_assoc] at hlast
        simpa [← List.append_assoc] using hlast

/-- A single selector is its own only part, and an empty one has none. -/
theorem selectorParts_of_isSingle {selector : String} (h : IsSingle selector) :
    selectorParts selector = if selector.isEmpty then [] else [selector] := by
  have hcut : ∀ cs : List Char, ',' ∉ cs → Text.cutAt (· == ',') cs = [cs] := by
    intro cs hcs
    induction cs with
    | nil => rfl
    | cons c cs ih =>
      rw [List.mem_cons, not_or] at hcs
      have hc : (c == ',') = false := by simpa using Ne.symm hcs.1
      simp [Text.cutAt, hc, ih hcs.2]
  rw [selectorParts, hcut _ h.1]
  simp only [List.map_cons, List.map_nil, h.2, String.ofList_toList]
  cases hempty : selector.isEmpty <;> simp [hempty]

/-- A single selector addresses the host if it is one of the host. -/
theorem addressesHost_of_isSingle {selector : String} (h : IsSingle selector) :
    addressesHost selector = isHost (Selector.normalize selector) := by
  rw [addressesHost, selectorParts_of_isSingle h.normalize]
  split
  · next hempty =>
    rw [String.isEmpty_iff] at hempty
    rw [hempty]
    decide
  · simp

/-- The selector of a part is one of the host if the whole selector is the part and is one. -/
theorem isHost_partSelector_normalize (cell : Cell) (selector : String) :
    isHost (partSelector cell (isSpecial (Selector.normalize selector))
      (Selector.normalize selector)) = isHost (Selector.normalize selector) := by
  cases hspecial : isSpecial (Selector.normalize selector) with
  | true => rw [partSelector, if_pos rfl, normalize_normalize]
  | false =>
    rw [partSelector, if_neg Bool.false_ne_true, isHost_ofCell]
    rw [isSpecial, Bool.or_eq_false_iff] at hspecial
    exact hspecial.1.symm

/-! ### Special lists -/

/-- The first part of a list begins with its front, if that has no blanks at its ends and no
comma. -/
theorem selectorParts_append {front rest part : List Char} {parts : List (List Char)}
    (hne : front ≠ []) (hfirst : Text.isBlank (front.head hne) = false)
    (hlast : Text.isBlank (front.getLast hne) = false) (hcomma : ∀ c ∈ front, (c == ',') = false)
    (hcut : Text.cutAt (· == ',') rest = part :: parts) {selector : String}
    (h : selector.toList = front ++ rest) :
    selectorParts selector = String.ofList (front ++ part.rdropWhile Text.isBlank) ::
      (parts.map fun part => String.ofList (Text.trim part)).filter (!·.isEmpty) := by
  have hkeep : String.ofList (front ++ part.rdropWhile Text.isBlank) ≠ "" := by
    rw [Ne, ← String.toList_inj, String.toList_ofList, String.toList_empty, List.append_eq_nil_iff]
    exact fun hnil => hne hnil.1
  rw [selectorParts, h, Text.cutAt_append hcomma hcut, List.map_cons,
    Text.trim_append hne hfirst hlast]
  exact List.filter_cons_of_pos (by simpa using hkeep)

/-- The host's names have no blanks and no commas. -/
theorem ends_of_hostName {name : String} (h : name ∈ [host, ":doodle", "::doodle"]) :
    ∃ hne : name.toList ≠ [], Text.isBlank (name.toList.head hne) = false ∧
      Text.isBlank (name.toList.getLast hne) = false ∧ ∀ c ∈ name.toList, (c == ',') = false := by
  simp only [List.mem_cons, List.not_mem_nil, or_false] at h
  obtain rfl | rfl | rfl := h <;> exact ⟨by decide, by decide, by decide, by simp [host]⟩

/-- Writing the host's other name as its own in the whole list or part by part is the same. -/
theorem map_normalize_selectorParts (selector : String) :
    (selectorParts (normalize selector)).map normalize =
      (selectorParts selector).map normalize := by
  obtain ⟨heq, -⟩ | ⟨other, hother, rest, hrest, hhost⟩ := normalize_cases selector
  · rw [heq]
  · obtain ⟨part, parts, hcut⟩ := List.exists_cons_of_ne_nil (Text.cutAt_ne_nil (· == ',') rest)
    obtain ⟨hne, hfirst, hlast, hcomma⟩ := ends_of_hostName List.mem_cons_self
    obtain ⟨hne', hfirst', hlast', hcomma'⟩ := ends_of_hostName (List.mem_cons_of_mem _ hother)
    rw [selectorParts_append hne hfirst hlast hcomma hcut hhost,
      selectorParts_append hne' hfirst' hlast' hcomma' hcut hrest, List.map_cons, List.map_cons,
      ← normalize_of_other hother, normalize_normalize]

/-- A selector list of special parts, with the first part at its start. -/
structure IsSpecialList (selector : String) : Prop where
  /-- Neither a blank nor a comma stands in front of the first part. -/
  start : ∃ c ∈ selector.toList.head?, c ≠ ',' ∧ Text.isBlank c = false
  /-- All parts are special. -/
  parts : ∀ part ∈ selectorParts selector, isSpecial (normalize part) = true

/-- A list of special parts is special. -/
theorem IsSpecialList.isSpecial {selector : String} (h : IsSpecialList selector) :
    isSpecial (normalize selector) = true := by
  obtain ⟨⟨c, hc, hcomma, hblank⟩, hspecial⟩ := h
  obtain ⟨cs, hcs⟩ := List.head?_eq_some_iff.1 hc
  obtain ⟨part, parts, hcut⟩ := List.exists_cons_of_ne_nil (Text.cutAt_ne_nil (· == ',') cs)
  have hcomma' : ∀ d ∈ [c], (d == ',') = false := by simpa using hcomma
  have hparts := selectorParts_append (List.cons_ne_nil c []) hblank hblank hcomma' hcut hcs
  -- The list starts with its first part.
  have hpre : c :: part.rdropWhile Text.isBlank <+: selector.toList := by
    rw [hcs, List.cons_prefix_cons]
    exact ⟨rfl, (List.rdropWhile_prefix _ _).trans (Text.prefix_of_cutAt hcut)⟩
  have hfirst := hspecial (String.ofList ([c] ++ part.rdropWhile Text.isBlank))
    (by rw [hparts]; exact List.mem_cons_self)
  obtain ⟨name, hname, hpart⟩ := isSpecial_normalize_iff.1 hfirst
  rw [String.toList_ofList] at hpart
  exact isSpecial_normalize_iff.2 ⟨name, hname, hpart.trans hpre⟩

end Selector

end GridStyle
