import GridStyle.Proofs.Expansion.Lockstep
import GridStyle.Proofs.Generate
import GridStyle.Proofs.RuleStore

/-!
# Trees for Cells Alone

A tree that sets no grid and has no block for the host or the container (`Token.OfCells`) is about
cells alone. Its walk makes three kinds of changes: declarations for the cell, keyframes and
features (`Change.From.of_cells`). So the first pass finds no grid, composes no special block, and
leaves declarations of cells only (`cellsOnly_of_expandCell`), which the second pass does not see
(`toList_restart`).
-/

namespace GridStyle

/-- The token sets no grid and is no block for the host or the container. -/
def Token.OfCells : Token → Prop
  | .rule declaration => declaration.property ≠ "@grid"
  | .pseudo _ selector _ => Selector.isSpecial (Selector.normalize selector) = false
  | .condition _ _ _ | .keyframes _ _ => True

instance : DecidablePred Token.OfCells
  | .rule declaration => inferInstanceAs (Decidable (declaration.property ≠ "@grid"))
  | .pseudo _ selector _ =>
    inferInstanceAs (Decidable (Selector.isSpecial (Selector.normalize selector) = false))
  | .condition _ _ _ => inferInstanceAs (Decidable True)
  | .keyframes _ _ => inferInstanceAs (Decidable True)

/-- The pseudo part of a selector for a cell: none, or a part of the selector of an admitted
block. -/
def PseudoPart (admitted : Token → Prop) (part : String) : Prop :=
  part = "" ∨ ∃ id selector styles, admitted (.pseudo id selector styles) ∧
    part ∈ selectorParts (Selector.normalize selector)

/-- What a walk over tokens for cells alone can change. -/
theorem Change.From.of_cells {cell : Cell} {admitted : Token → Prop}
    (hcells : ∀ t, admitted t → t.OfCells) {c : Change} (h : c.From cell admitted) :
    (∃ part text, c = .declare (Selector.ofCell cell part) text ∧ PseudoPart admitted part) ∨
      (∃ keyframes, c = .define keyframes ∧
        admitted (.keyframes keyframes.name keyframes.steps)) ∨
      ∃ kind, c = .note kind := by
  -- Special blocks and grids are ruled out, since the token that a change is from is admitted.
  cases c with
  | declare selector text =>
    obtain rfl | ⟨id, list, styles, ha, part, hpart, rfl⟩ := h
    · exact .inl ⟨"", text, rfl, .inl rfl⟩
    · have hspecial : Selector.isSpecial (Selector.normalize list) = false := hcells _ ha
      refine .inl ⟨part, text, ?_, .inr ⟨id, list, styles, ha, hpart⟩⟩
      rw [partSelector, hspecial, if_neg Bool.false_ne_true]
  | define keyframes => exact .inr (.inl ⟨keyframes, rfl, h⟩)
  | note kind => exact .inr (.inr ⟨kind, rfl⟩)
  | begin id =>
    obtain ⟨list, styles, ha, hspecial⟩ := h
    have hcell : Selector.isSpecial (Selector.normalize list) = false := hcells _ ha
    rw [hcell] at hspecial
    exact absurd hspecial Bool.false_ne_true
  | hostGrid size | cellGrid size sizing | soughtGrid size =>
    obtain ⟨declaration, ha, hgrid, -⟩ := h
    exact absurd hgrid (hcells _ ha)

/-! ### The first pass -/

/-- No grid was found and no special block composed, and all declarations are those of cells. -/
structure Expansion.CellsOnly (s : Expansion) : Prop where
  /-- The store is in order. -/
  wellFormed : s.rules.WellFormed
  /-- There are declarations of cells only. -/
  isCell : ∀ selector ∈ s.rules.toList.map Prod.fst, Selector.isCell selector = true
  /-- No special block was composed. -/
  composed : s.composed = []
  /-- No grid was found. -/
  grid : s.grid = none

theorem Expansion.cellsOnly_ofSeed (seed : UInt64) : (Expansion.ofSeed seed).CellsOnly := by
  refine ⟨RuleStore.wellFormed_empty, fun selector hselector => ?_, rfl, rfl⟩
  have hnil : (Expansion.ofSeed seed).rules.toList = [] := rfl
  rw [hnil] at hselector
  exact absurd hselector List.not_mem_nil

/-- A walk over a tree for cells alone stays with cells. -/
theorem kept_cellsOnly (cell : Cell) (initial : Bool) :
    Kept cell initial Token.OfCells fun s => s.discovering = initial ∧ s.CellsOnly := by
  refine ⟨fun hs => hs.1, fun c hs => ⟨hs.1, hs.2.1, hs.2.2, hs.2.3, hs.2.4⟩, ?_⟩
  rintro s c ⟨hdiscovering, hs⟩ hc
  obtain ⟨part, text, rfl, -⟩ | ⟨keyframes, rfl, -⟩ | ⟨kind, rfl⟩ := hc.of_cells fun _ ht => ht
  · refine ⟨hdiscovering, hs.wellFormed.push _ text, fun selector hselector => ?_, hs.composed,
      hs.grid⟩
    rw [Expansion.apply, Expansion.push, RuleStore.toList_push hs.wellFormed] at hselector
    split at hselector
    · exact hs.isCell selector hselector
    · rw [RuleStore.mem_keys_appendTo] at hselector
      obtain rfl | hold := hselector
      · exact Selector.isCell_ofCell cell part
      · exact hs.isCell selector hold
  · exact ⟨hdiscovering, hs.wellFormed, hs.isCell, hs.composed, hs.grid⟩
  · cases kind <;> exact ⟨hdiscovering, hs.wellFormed, hs.isCell, hs.composed, hs.grid⟩

/-- The visit of a cell for a tree for cells alone stays with cells. -/
theorem cellsOnly_of_expandCell {kit : Toolkit} {initial : Bool} {tokens : List Token}
    {cell : Cell} {s s' : Expansion} (hcells : ∀ t ∈ Token.within tokens, t.OfCells)
    (hs : s.CellsOnly) (h : (expandCell kit initial tokens cell).perform s = (.ok (), s')) :
    s'.CellsOnly := by
  rw [Expanding.perform_expandCell] at h
  have henter : (s.enter initial cell).discovering = initial ∧
      (s.enter initial cell).CellsOnly := ⟨rfl, hs.1, hs.2, hs.3, hs.4⟩
  have hkept : _ ∧ ((expandTokens kit cell initial tokens).perform
      (s.enter initial cell)).2.CellsOnly :=
    (kept_cellsOnly cell initial).expandTokens hcells henter
  rw [h] at hkept
  exact hkept.2

/-- The second pass begins without any declaration if all were those of cells. -/
theorem Expansion.CellsOnly.toList_restart {s : Expansion} (h : s.CellsOnly) (seed : UInt64) :
    (s.restart seed).rules.toList = [] := by
  change s.rules.dropCells.toList = []
  rw [RuleStore.toList_dropCells, List.filter_eq_nil_iff]
  intro bucket hbucket
  rw [h.isCell bucket.1 (List.mem_map_of_mem hbucket)]
  decide

end GridStyle
