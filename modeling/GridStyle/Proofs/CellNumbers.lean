import GridStyle.Proofs.SecondPass

/-!
# Walking a Whole Grid

Whatever a grid text says, the grid that is read from it is small (`GridSize.InLimits`) and is
walked completely: every place inside of it is visited once, in lexicographic order. A generation
with such a grid numbers its cells from one to their count, and gives each an identifier of its own
(`walk_ofText`).
-/

namespace GridStyle

namespace GridSize

/-- The grid has a place, has depth only for a single row and column, and counts few cells. -/
structure InLimits (g : GridSize) : Prop where
  /-- No side is zero. -/
  one_le : 1 ≤ g.x ∧ 1 ≤ g.y ∧ 1 ≤ g.z
  /-- A grid with depth has one row and one column. -/
  single_of_depth : 1 < g.z → g.x = 1 ∧ g.y = 1
  /-- The count is small, and so is the first of the two products that make it. -/
  count_le : g.x * g.y ≤ 4096 ∧ g.count ≤ 4096

/-- The grid of a text is within the limits. -/
theorem inLimits_ofText (text : String) : (ofText text).InLimits where
  one_le := one_le_ofSides _ _ _
  single_of_depth := depth_ofSides
  count_le := count_ofSides_le _ _ _

/-- In words of 32 bits the count of a small grid is the same. -/
theorem InLimits.toNat_count {g : GridSize} (h : g.InLimits) :
    (UInt32.ofNat g.x * UInt32.ofNat g.y * UInt32.ofNat g.z).toNat = g.count := by
  have hcount : g.x * g.y * g.z < 2 ^ 32 := Nat.lt_of_le_of_lt h.count_le.2 (by decide)
  rw [UInt32.toNat_mul, UInt32.toNat_mul, UInt32.toNat_ofNat', UInt32.toNat_ofNat',
    UInt32.toNat_ofNat']
  rw [← Nat.mul_mod g.x, ← Nat.mul_mod (g.x * g.y), Nat.mod_eq_of_lt hcount]
  rfl

/-- The cells of a grid have different identifiers. -/
theorem nodup_cellIds (g : GridSize) : (g.cells.map Selector.cellId).Nodup := by
  rw [List.Nodup, List.pairwise_map]
  refine g.pairwise_cells.imp fun {a b} hplaces hid => hplaces ?_
  have hselector : Selector.ofCell a "" = Selector.ofCell b "" := by
    rw [Selector.ofCell, Selector.ofCell, hid]
  obtain ⟨hx, hy, hz, -⟩ :=
    Selector.ofCell_inj Selector.noDigitFirst_empty Selector.noDigitFirst_empty hselector
  exact ⟨hx, hy, hz⟩

end GridSize

/-- Every text is read as a grid within the limits, whose count fits into a word of 32 bits. Its
places are as many as it counts, they are different and visited in lexicographic order, and they are
all the places inside of it. A generation with this grid, however it came to it, visits a cell at
each place in this order, numbers them from one to their count and gives them different identifiers.
-/
theorem walk_ofText (text : String) :
    (GridSize.ofText text).InLimits ∧
    (UInt32.ofNat (GridSize.ofText text).x * UInt32.ofNat (GridSize.ofText text).y *
      UInt32.ofNat (GridSize.ofText text).z).toNat = (GridSize.ofText text).count ∧
    (GridSize.ofText text).coordinates.length = (GridSize.ofText text).count ∧
    (GridSize.ofText text).coordinates.Nodup ∧
    (GridSize.ofText text).coordinates.Pairwise Coordinates.Before ∧
    (∀ p, p ∈ (GridSize.ofText text).coordinates ↔
      (1 ≤ p.x ∧ p.x ≤ (GridSize.ofText text).x) ∧ (1 ≤ p.y ∧ p.y ≤ (GridSize.ofText text).y) ∧
        1 ≤ p.z ∧ p.z ≤ (GridSize.ofText text).z) ∧
    ∀ kit seed tokens default compiled, generate kit seed tokens default = .ok compiled →
      compiled.grid = GridSize.ofText text →
      let visited := (secondPass kit seed tokens default).history.toList
      visited.map (fun cell => (⟨cell.x, cell.y, cell.z⟩ : Coordinates)) =
          (GridSize.ofText text).coordinates ∧
        visited.map (·.count) = GridSize.upTo (GridSize.ofText text).count ∧
        (visited.map Selector.cellId).Nodup := by
  have hlimits := GridSize.inLimits_ofText text
  refine ⟨hlimits, hlimits.toNat_count, GridSize.length_coordinates_ofText text,
    GridSize.nodup_coordinates _, GridSize.pairwise_coordinates _,
    GridSize.mem_coordinates hlimits.one_le.2.2 hlimits.single_of_depth, ?_⟩
  intro kit seed tokens default compiled h hgrid
  have hvisited : (secondPass kit seed tokens default).history.toList =
      (GridSize.ofText text).cells := by rw [history_secondPass h, hgrid]
  refine ⟨?_, ?_, ?_⟩
  · rw [hvisited, GridSize.map_place_cells]
  · rw [hvisited, GridSize.map_count_cells, GridSize.length_cells_ofText]
  · rw [hvisited]
    exact GridSize.nodup_cellIds _

/-- A text with junk behind three numbers is read as three layers of one cell, and these are
numbered from one to three. -/
theorem walk_ofText_layers :
    GridSize.ofText "1, 1 x 3, junk" = ⟨1, 1, 3⟩ ∧
    ∃ compiled, generate .builtin 1 [.rule (.ofText "color" "red")]
        (GridSize.ofText "1, 1 x 3, junk") = .ok compiled ∧
      ((secondPass .builtin 1 [.rule (.ofText "color" "red")]
        (GridSize.ofText "1, 1 x 3, junk")).history.toList.map (·.count)) = [1, 2, 3] ∧
      ((secondPass .builtin 1 [.rule (.ofText "color" "red")]
        (GridSize.ofText "1, 1 x 3, junk")).history.toList.map Selector.cellId).Nodup := by
  obtain ⟨compiled, h⟩ := exists_generate_eq (show (generate .builtin 1
    [.rule (.ofText "color" "red")] (GridSize.ofText "1, 1 x 3, junk")).isOk = true by
      decide +kernel)
  have htext : GridSize.ofText "1, 1 x 3, junk" = ⟨1, 1, 3⟩ := by decide +kernel
  have hgrid : compiled.grid = GridSize.ofText "1, 1 x 3, junk" := by
    rw [(generate_passes h).2.2.1]
    decide +kernel
  obtain ⟨-, -, -, -, -, -, hwalk⟩ := walk_ofText "1, 1 x 3, junk"
  obtain ⟨-, hnumbers, hids⟩ := hwalk _ _ _ _ _ h hgrid
  refine ⟨htext, compiled, h, ?_, hids⟩
  rw [hnumbers, htext]
  decide

end GridStyle
