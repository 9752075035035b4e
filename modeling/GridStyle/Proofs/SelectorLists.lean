import GridStyle.Proofs.BlockParts
import GridStyle.Proofs.TopLevel

/-!
# Selector Lists and Nested Commas

The list of a pseudo block is cut at every comma, also at one in parentheses or quotes. So the
selectors that a block composes rules for are closed exactly if the list is and no comma stands in
parentheses or quotes, and they are the parts that a value list would be split into exactly if every
comma is at the top level (`blockSelectors_closed_iff`). A functional selector with a list of its
own is cut into pieces (`functional_selector_cut`).
-/

namespace GridStyle

open Expanding Text

/-! ### Parts -/

/-- The parts of a list are the trimmed ones that are not empty. -/
theorem selectorParts_eq (list : String) :
    selectorParts list = (tidy (cutAt atCommas.separates list.toList)).map String.ofList := by
  rw [selectorParts, tidy, List.filter_map, List.filter_map, List.map_map]
  refine congrArg _ (List.filter_congr fun part _ => ?_)
  by_cases hpart : trim part = [] <;> simp [hpart]

/-- The parts are those of a value list exactly if every comma is at the top level. -/
theorem selectorParts_eq_splitGroup_iff (list : String) :
    selectorParts list = splitGroup list ↔ CommasAtTop list := by
  have hinj : Function.Injective (List.map String.ofList) :=
    List.map_injective_iff.2 fun _ _ h => String.ofList_inj.1 h
  rw [selectorParts_eq, splitGroup, hinj.eq_iff, eq_comm]
  exact split_eq_tidy_cutAt_iff (fun _ => not_mem_marks_of_atCommas)
    (fun _ => not_isBlank_of_atCommas) _

/-- No part has a comma. -/
theorem not_mem_selectorParts {list part : String} (h : part ∈ selectorParts list) :
    ',' ∉ part.toList := by
  rw [selectorParts_eq, List.mem_map] at h
  obtain ⟨cs, hcs, rfl⟩ := h
  rw [tidy, List.mem_filter, List.mem_map] at hcs
  obtain ⟨⟨whole, hwhole, rfl⟩, -⟩ := hcs
  rw [String.toList_ofList, mem_trim_iff (by decide)]
  intro hcomma
  exact absurd (of_mem_cutAt hwhole _ hcomma).2 (by decide)

/-- The parts are closed exactly if the list is and no comma is nested. -/
theorem forall_selectorParts_closed_iff (list : String) :
    (∀ part ∈ selectorParts list, Text.IsClosed part) ↔ Text.IsClosed list ∧ CommasOutside list := by
  obtain ⟨first, rest, hcut⟩ :=
    List.exists_cons_of_ne_nil (cutAt_ne_nil atCommas.separates list.toList)
  have hparts := closes_cutAt_iff (fun _ => not_mem_marks_of_atCommas) (s := {}) hcut
  rw [← List.forall_mem_cons (p := Nesting.Closes atCommas.escapes {}), ← hcut] at hparts
  refine Iff.trans ?_ hparts
  rw [selectorParts_eq, List.forall_mem_map]
  -- What is trimmed or dropped does not matter.
  constructor
  · intro h part hpart
    by_cases hempty : trim part = []
    · rw [← closes_trim_iff, hempty]
      exact rfl
    · have hmem : trim part ∈ tidy (cutAt atCommas.separates list.toList) :=
        List.mem_filter.2 ⟨List.mem_map_of_mem hpart, by simpa using hempty⟩
      simpa [Text.IsClosed, closes_trim_iff, atCommas] using h _ hmem
  · intro h part hpart
    rw [tidy, List.mem_filter, List.mem_map] at hpart
    obtain ⟨⟨whole, hwhole, rfl⟩, -⟩ := hpart
    rw [Text.IsClosed, String.toList_ofList, closes_trim_iff]
    exact h whole hwhole

/-! ### Fronts without marks -/

section Fronts

/-- Two texts that differ in fronts without marks are closed if one of them is. -/
theorem isClosed_congr {front front' rest : List Char} {text text' : String}
    (hfront : ∀ c ∈ front, c ∉ marks) (hfront' : ∀ c ∈ front', c ∉ marks)
    (h : text.toList = front ++ rest) (h' : text'.toList = front' ++ rest) :
    Text.IsClosed text ↔ Text.IsClosed text' := by
  rw [Text.IsClosed, Text.IsClosed, h, h', Nesting.closes_append_iff_of_left hfront,
    Nesting.closes_append_iff_of_left hfront']

/-- Writing the host's other name as its own changes no mark and no comma. -/
theorem normalize_marks (selector : String) :
    ∃ front front' rest, selector.toList = front ++ rest ∧
      (Selector.normalize selector).toList = front' ++ rest ∧
      (∀ c ∈ front, c ∉ marks ∧ atCommas.separates c = false) ∧
      ∀ c ∈ front', c ∉ marks ∧ atCommas.separates c = false := by
  obtain ⟨heq, -⟩ | ⟨other, hother, rest, hrest, hhost⟩ := Selector.normalize_cases selector
  · exact ⟨[], [], selector.toList, rfl, by rw [heq]; rfl, by simp, by simp⟩
  · refine ⟨_, _, rest, hrest, hhost, ?_, forall_mem_of_all (by decide)⟩
    simp only [List.mem_cons, List.not_mem_nil, or_false] at hother
    rcases hother with rfl | rfl <;> exact forall_mem_of_all (by decide)

theorem isClosed_normalize_iff (selector : String) :
    Text.IsClosed (Selector.normalize selector) ↔ Text.IsClosed selector := by
  obtain ⟨front, front', rest, h, h', hfront, hfront'⟩ := normalize_marks selector
  exact isClosed_congr (fun c hc => (hfront' c hc).1) (fun c hc => (hfront c hc).1) h' h

/-- Where the commas of a list stand does not depend on the name of the host. -/
theorem separatesAt_normalize_iff (p : Nesting → Bool) (selector : String) :
    Nesting.SeparatesAt atCommas p {} (Selector.normalize selector).toList ↔
      Nesting.SeparatesAt atCommas p {} selector.toList := by
  obtain ⟨front, front', rest, h, h', hfront, hfront'⟩ := normalize_marks selector
  rw [h, h', Nesting.separatesAt_append_iff hfront, Nesting.separatesAt_append_iff hfront']

theorem mem_normalize_iff (selector : String) :
    ',' ∈ (Selector.normalize selector).toList ↔ ',' ∈ selector.toList := by
  obtain ⟨front, front', rest, h, h', hfront, hfront'⟩ := normalize_marks selector
  have hnot : ∀ {front : List Char},
      (∀ c ∈ front, c ∉ marks ∧ atCommas.separates c = false) → ',' ∉ front := fun hfront hmem =>
    absurd (hfront _ hmem).2 (by decide)
  rw [h, h', List.mem_append, List.mem_append, or_iff_right (hnot hfront),
    or_iff_right (hnot hfront')]

/-- The identifier of a cell has digits, dashes and lower letters. -/
theorem toList_ofCell_marks (cell : Cell) (pseudo : String) :
    ∃ front, (Selector.ofCell cell pseudo).toList = front ++ pseudo.toList ∧
      ∀ c ∈ front, c ∉ marks ∧ c ≠ ',' := by
  -- The identifier is made of fixed texts and of the three coordinates as numbers.
  have hnumber : ∀ n : Nat, ∀ c ∈ (toString n).toList, c ∉ marks ∧ c ≠ ',' := by
    intro n c hc
    have hdigit := isDigit_of_mem_toString c hc
    refine ⟨fun hmark => ?_, ?_⟩
    · simp only [marks, List.mem_cons, List.not_mem_nil, or_false] at hmark
      rcases hmark with rfl | rfl | rfl | rfl | rfl <;> exact absurd hdigit (by decide)
    · rintro rfl
      exact absurd hdigit (by decide)
  refine ⟨(Selector.ofCell cell "").toList, ?_, fun c hc => ?_⟩
  · simp [Selector.ofCell, String.toList_append]
  · simp only [Selector.ofCell, Selector.cellId, String.toList_append, List.mem_append] at hc
    have hfixed : ∀ {text : List Char},
        (text.all fun c => decide (c ∉ marks ∧ c ≠ ',')) = true → c ∈ text →
          c ∉ marks ∧ c ≠ ',' := fun h hc => forall_mem_of_all h c hc
    rcases hc with (hc | (((((hc | hc) | hc) | hc) | hc) | hc)) | hc
    · exact hfixed (by decide) hc
    · exact hfixed (by decide) hc
    · exact hnumber _ c hc
    · exact hfixed (by decide) hc
    · exact hnumber _ c hc
    · exact hfixed (by decide) hc
    · exact hnumber _ c hc
    · exact hfixed (by decide) hc

/-- The selector of a part is closed exactly if the part is. -/
theorem isClosed_partSelector_iff (cell : Cell) (special : Bool) (part : String) :
    Text.IsClosed (partSelector cell special part) ↔ Text.IsClosed part := by
  cases special with
  | true => exact isClosed_normalize_iff part
  | false =>
    obtain ⟨front, h, hfront⟩ := toList_ofCell_marks cell part
    exact isClosed_congr (fun c hc => (hfront c hc).1) (fun c hc => absurd hc List.not_mem_nil) h
      (List.nil_append part.toList).symm

theorem mem_partSelector_iff (cell : Cell) (special : Bool) (part : String) :
    ',' ∈ (partSelector cell special part).toList ↔ ',' ∈ part.toList := by
  cases special with
  | true => exact mem_normalize_iff part
  | false =>
    obtain ⟨front, h, hfront⟩ := toList_ofCell_marks cell part
    change ',' ∈ (Selector.ofCell cell part).toList ↔ _
    rw [h, List.mem_append, or_iff_right fun hmem => (hfront _ hmem).2 rfl]

end Fronts

/-! ### Selectors of blocks -/

/-- The selectors that a block composes its rules for in a cell. -/
def blockSelectors (cell : Cell) (list : String) : List String :=
  (selectorParts (Selector.normalize list)).map
    (partSelector cell (Selector.isSpecial (Selector.normalize list)))

/-- A pseudo block composes its rules for the parts of its list between all commas, unless it has
begun. These selectors are closed exactly if the list is closed and none of its commas stands in
parentheses or quotes. They are those of the parts of a value list exactly if every comma is at the
top level, where no backslash protects it either. -/
theorem blockSelectors_closed_iff (kit : Toolkit) (cell : Cell) (id : Nat) (list : String)
    (styles : List Rule) :
    (∀ initial s, (expandToken kit cell initial (.pseudo id list styles)).perform s =
      if id ∈ s.composed then (.ok (), s)
      else ((blockSelectors cell list).forM fun selector =>
        expandRules kit cell selector styles).perform
          (if Selector.isSpecial (Selector.normalize list) then s.apply (.begin id) else s)) ∧
    ((∀ selector ∈ blockSelectors cell list, Text.IsClosed selector) ↔
      Text.IsClosed list ∧ CommasOutside list) ∧
    (blockSelectors cell list = (splitGroup (Selector.normalize list)).map
        (partSelector cell (Selector.isSpecial (Selector.normalize list))) ↔
      CommasAtTop list) := by
  refine ⟨fun initial s => ?_, ?_, fun h => ?_, fun h => ?_⟩
  · rw [perform_expandToken_pseudo, blockSelectors]
    simp only [List.forM_eq_forM, List.forM_map]
    refine if_congr Iff.rfl rfl ?_
    cases Selector.isSpecial (Selector.normalize list) with
    | true =>
      rw [if_pos rfl, if_pos rfl, beginSpecial, perform_modify_bind]
      rfl
    | false => rw [if_neg Bool.false_ne_true, if_neg Bool.false_ne_true, pure_bind]
  · rw [blockSelectors, List.forall_mem_map]
    simp only [isClosed_partSelector_iff]
    rw [forall_selectorParts_closed_iff, isClosed_normalize_iff, CommasOutside,
      separatesAt_normalize_iff, CommasOutside]
  · -- No selector of the block has a comma, so none of the other parts has one.
    rw [CommasAtTop, ← separatesAt_normalize_iff,
      ← forall_cutTop_iff fun _ => not_mem_marks_of_atCommas]
    intro part hpart c hc
    by_contra hsep
    rw [Bool.not_eq_false] at hsep
    obtain rfl : c = ',' := by simpa [atCommas] using hsep
    have htrim := (mem_trim_iff (not_isBlank_of_atCommas hsep)).2 hc
    have hmem : String.ofList (trim part) ∈ splitGroup (Selector.normalize list) := by
      rw [splitGroup, split_eq, tidy]
      refine List.mem_map_of_mem (List.mem_filter.2 ⟨List.mem_map_of_mem hpart, ?_⟩)
      simpa using List.ne_nil_of_mem htrim
    have hselector := List.mem_map_of_mem
      (f := partSelector cell (Selector.isSpecial (Selector.normalize list))) hmem
    rw [← h, blockSelectors, List.mem_map] at hselector
    obtain ⟨other, hother, heq⟩ := hselector
    refine not_mem_selectorParts hother ?_
    rw [← mem_partSelector_iff cell, heq, mem_partSelector_iff, String.toList_ofList]
    exact htrim
  · have htop : CommasAtTop (Selector.normalize list) := (separatesAt_normalize_iff _ _).2 h
    rw [blockSelectors, (selectorParts_eq_splitGroup_iff _).2 htop]

/-- The list of a functional selector is cut at its comma, and what is declared for it stands under
two selectors that are not closed. -/
theorem functional_selector_cut :
    Text.IsClosed ":is(.a, .b)" ∧ splitGroup ":is(.a, .b)" = [":is(.a, .b)"] ∧
    ∃ compiled, generate .builtin 1 [.pseudo 0 ":is(.a, .b)" [.ofText "color" "red"]]
        ⟨1, 1, 1⟩ = .ok compiled ∧
      ∀ selector ∈ ["#cell-1-1-1:is(.a", "#cell-1-1-1.b)"], ¬ Text.IsClosed selector ∧
        ((secondPass .builtin 1 [.pseudo 0 ":is(.a, .b)" [.ofText "color" "red"]] ⟨1, 1, 1⟩
          ).rules.toList.lookup selector).getD [] = ["color: red;"] := by
  obtain ⟨compiled, h⟩ := exists_generate_eq
    (show (generate .builtin 1 [.pseudo 0 ":is(.a, .b)" [.ofText "color" "red"]]
      ⟨1, 1, 1⟩).isOk = true by decide +kernel)
  refine ⟨by decide, by decide, compiled, h, ?_⟩
  simp only [List.forall_mem_cons, List.not_mem_nil, false_imp_iff, implies_true, and_true]
  rw [lookup_secondPass_of_isCell h (by decide), lookup_secondPass_of_isCell h (by decide)]
  exact ⟨⟨by decide, by decide +kernel⟩, by decide, by decide +kernel⟩

end GridStyle
