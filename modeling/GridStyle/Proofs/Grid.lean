import GridStyle.Cell
import GridStyle.Directive
import GridStyle.Proofs.Trimming

/-!
# Grids and Their Cells

The cells of a grid are visited in lexicographic order (`GridSize.pairwise_coordinates`), and so
they are at different places (`GridSize.pairwise_cells`). A grid that was read from a text has one
cell at least and `4096` at most (`GridSize.count_ofSides_le`), and all places inside of it are
visited (`GridSize.mem_coordinates`). Blanks at the ends of a grid text do not count, so a directive
without a slash sets the grid of its text (`Directive.readGrid_of_no_slash`).
-/

namespace GridStyle

/-- The place comes before another one: in a row above, or in the same row in a column before, or in
the same row and column in a layer before. -/
def Coordinates.Before (p q : Coordinates) : Prop :=
  p.x < q.x ∨ p.x = q.x ∧ (p.y < q.y ∨ p.y = q.y ∧ p.z < q.z)

theorem Coordinates.not_before_self (p : Coordinates) : ¬ p.Before p := by
  simp [Before]

namespace GridSize

/-! ### Cells -/

/-- The places of a grid are visited in lexicographic order. -/
theorem pairwise_coordinates (g : GridSize) : g.coordinates.Pairwise Coordinates.Before := by
  have hupTo : ∀ n, (upTo n).Pairwise (· < ·) := fun n => List.pairwise_lt_range'
  rw [coordinates]
  -- The places differ in the number of the layer, or in the column, or in the row.
  split
  · rw [List.pairwise_map]
    exact (hupTo g.z).imp fun hlt => .inr ⟨rfl, .inr ⟨rfl, hlt⟩⟩
  · rw [List.pairwise_flatMap]
    refine ⟨fun x _ => ?_, (hupTo g.x).imp fun hlt p hp p' hp' => ?_⟩
    · rw [List.pairwise_map]
      exact (hupTo g.y).imp fun hlt => .inr ⟨rfl, .inl hlt⟩
    · obtain ⟨y, -, rfl⟩ := List.mem_map.1 hp
      obtain ⟨y', -, rfl⟩ := List.mem_map.1 hp'
      exact .inl hlt

/-- The places of a grid are different. -/
theorem nodup_coordinates (g : GridSize) : g.coordinates.Nodup := by
  rw [List.nodup_iff_pairwise_ne]
  refine g.pairwise_coordinates.imp ?_
  rintro p _ hbefore rfl
  exact p.not_before_self hbefore

/-- The places of the cells are those of the grid. -/
theorem map_place_cells (g : GridSize) :
    g.cells.map (fun cell => (⟨cell.x, cell.y, cell.z⟩ : Coordinates)) = g.coordinates := by
  rw [cells, List.map_map]
  exact List.zipIdx_map_fst 0 g.coordinates

/-- The cells of a grid are at different places. -/
theorem pairwise_cells (g : GridSize) :
    g.cells.Pairwise fun a b => ¬ (a.x = b.x ∧ a.y = b.y ∧ a.z = b.z) := by
  have hnodup := g.nodup_coordinates
  rw [← g.map_place_cells, List.Nodup, List.pairwise_map] at hnodup
  refine hnodup.imp fun hne hsame => hne ?_
  rw [hsame.1, hsame.2.1, hsame.2.2]

/-- The cells of a grid are numbered from one. -/
theorem map_count_cells (g : GridSize) :
    g.cells.map (·.count) = upTo g.cells.length := by
  have hcounts : g.cells.map (·.count) = (g.coordinates.zipIdx.map Prod.snd).map (1 + ·) := by
    rw [cells, List.map_map, List.map_map]
    refine List.map_congr_left fun visit _ => ?_
    exact Nat.add_comm visit.2 1
  rw [hcounts, List.zipIdx_map_snd, List.map_add_range', cells, List.length_map,
    List.length_zipIdx, upTo]

/-- The cells of a grid know it. -/
theorem grid_of_mem_cells {g : GridSize} {cell : Cell} (h : cell ∈ g.cells) : cell.grid = g := by
  obtain ⟨p, -, rfl⟩ := List.mem_map.1 h
  rfl

/-- A grid whose sides are at least one has a cell. -/
theorem cells_ne_nil {g : GridSize} (hx : 1 ≤ g.x) (hy : 1 ≤ g.y) (hz : 1 ≤ g.z) :
    g.cells ≠ [] := by
  have hone : (⟨1, 1, 1⟩ : Coordinates) ∈ g.coordinates := by
    rw [coordinates]
    split
    · exact List.mem_map.2 ⟨1, mem_upTo.2 ⟨Nat.le_refl 1, hz⟩, rfl⟩
    · refine List.mem_flatMap.2 ⟨1, mem_upTo.2 ⟨Nat.le_refl 1, hx⟩, ?_⟩
      exact List.mem_map.2 ⟨1, mem_upTo.2 ⟨Nat.le_refl 1, hy⟩, rfl⟩
  intro hnil
  rw [cells, List.map_eq_nil_iff, List.zipIdx_eq_nil_iff] at hnil
  rw [hnil] at hone
  exact absurd hone List.not_mem_nil

/-- Without depth, or with one row and one column, a grid has as many places as it counts. -/
theorem length_coordinates {g : GridSize} (hz : 1 ≤ g.z)
    (hdepth : 1 < g.z → g.x = 1 ∧ g.y = 1) : g.coordinates.length = g.count := by
  rw [coordinates, count]
  split
  · next hlayered =>
    obtain ⟨hx, hy⟩ := hdepth (by simpa [layered] using hlayered)
    rw [List.length_map, length_upTo, hx, hy, Nat.one_mul]
  · next hflat =>
    have hone : g.z = 1 := by
      simp only [layered, decide_eq_true_eq] at hflat
      omega
    rw [List.length_flatMap, hone, Nat.mul_one]
    simp only [List.length_map, length_upTo, List.map_const', List.sum_replicate_nat]

/-- A grid has as many cells as places. -/
theorem length_cells (g : GridSize) : g.cells.length = g.coordinates.length := by
  rw [cells, List.length_map, List.length_zipIdx]

/-- The places of a grid that is flat, or has one row and one column, are all those inside. -/
theorem mem_coordinates {g : GridSize} (hz : 1 ≤ g.z) (hdepth : 1 < g.z → g.x = 1 ∧ g.y = 1)
    (p : Coordinates) :
    p ∈ g.coordinates ↔
      (1 ≤ p.x ∧ p.x ≤ g.x) ∧ (1 ≤ p.y ∧ p.y ≤ g.y) ∧ 1 ≤ p.z ∧ p.z ≤ g.z := by
  obtain ⟨x, y, z⟩ := p
  rw [coordinates]
  split
  · next hlayered =>
    -- A layered grid has one place in every layer.
    obtain ⟨hx, hy⟩ := hdepth (by simpa [layered] using hlayered)
    simp only [List.mem_map, mem_upTo, Coordinates.mk.injEq, hx, hy]
    constructor
    · rintro ⟨z, hz, rfl, rfl, rfl⟩
      omega
    · rintro ⟨hx, hy, hz⟩
      exact ⟨z, hz, by omega, by omega, rfl⟩
  · next hflat =>
    have hone : g.z = 1 := by
      simp only [layered, decide_eq_true_eq] at hflat
      omega
    simp only [List.mem_flatMap, List.mem_map, mem_upTo, Coordinates.mk.injEq, hone]
    constructor
    · rintro ⟨x, hx, y, hy, rfl, rfl, rfl⟩
      omega
    · rintro ⟨hx, hy, hz⟩
      exact ⟨x, hx, y, hy, rfl, rfl, by omega⟩

/-! ### Texts -/

/-- Only a grid of one row and one column that was read from a text has depth. -/
theorem depth_ofSides {x y z : Option Nat} (h : 1 < (ofSides x y z).z) :
    (ofSides x y z).x = 1 ∧ (ofSides x y z).y = 1 := by
  have hclamp : (ofSides x y z).z = clampSide
      (if (ofSides x y z).x = 1 ∧ (ofSides x y z).y = 1 then depthLimit else 1) (z.getD 1) := rfl
  by_contra hnot
  rw [hclamp, if_neg hnot, clampSide] at h
  omega

/-- A grid that was read from a text has as many places as it counts. -/
theorem length_coordinates_ofText (text : String) :
    (ofText text).coordinates.length = (ofText text).count :=
  length_coordinates (one_le_ofSides _ _ _).2.2 depth_ofSides

/-- A grid that was read from a text has as many cells as it counts. -/
theorem length_cells_ofText (text : String) : (ofText text).cells.length = (ofText text).count :=
  (length_cells _).trans (length_coordinates_ofText text)

/-- A grid from `ofSides` has rows and columns for `4096` cells at most, and depth only for a single
row and column. -/
theorem count_ofSides_le (x y z : Option Nat) :
    (ofSides x y z).x * (ofSides x y z).y ≤ 4096 ∧ (ofSides x y z).count ≤ 4096 := by
  have hclamp : ∀ limit n : Nat, clampSide limit n ≤ limit := fun limit n => Nat.min_le_right _ _
  have harea : (ofSides x y z).x * (ofSides x y z).y ≤ sideLimit * sideLimit := by
    simp only [ofSides]
    split
    · next hline =>
      -- One of the two sides is one.
      obtain rfl | rfl := hline
      · exact (Nat.mul_le_mul_left 1 (hclamp lineLimit _)).trans (by decide)
      · exact (Nat.mul_le_mul_right 1 (hclamp lineLimit _)).trans (by decide)
    · exact Nat.mul_le_mul (hclamp sideLimit _) (hclamp sideLimit _)
  refine ⟨harea, ?_⟩
  have hdepth : (ofSides x y z).z = clampSide
      (if (ofSides x y z).x = 1 ∧ (ofSides x y z).y = 1 then depthLimit else 1) (z.getD 1) := rfl
  rw [count, hdepth]
  split
  · next hone =>
    rw [hone.1, hone.2]
    exact (Nat.mul_le_mul_left _ (hclamp depthLimit _)).trans (by decide)
  · calc (ofSides x y z).x * (ofSides x y z).y * clampSide 1 (z.getD 1)
        ≤ (ofSides x y z).x * (ofSides x y z).y * 1 := Nat.mul_le_mul_left _ (hclamp 1 _)
      _ ≤ 4096 := by rw [Nat.mul_one]; exact harea

/-- A grid that was read from a text has a cell. -/
theorem cells_ofText_ne_nil (text : String) : (ofText text).cells ≠ [] := by
  obtain ⟨hx, hy, hz⟩ := one_le_ofSides (sides text.toList)[0]?.join (sides text.toList)[1]?.join
    (sides text.toList)[2]?.join
  exact cells_ne_nil hx hy hz

/-- The blanks at the ends of a grid text do not count. -/
theorem ofText_trim (text : String) :
    ofText (String.ofList (Text.trim text.toList)) = ofText text := by
  have hsides : sides (Text.trim text.toList) = sides text.toList := by
    rw [sides, sides, Text.dropBlanks_trim]
  rw [ofText, ofText, String.toList_ofList, hsides]

end GridSize

/-- Without a slash a grid directive has the grid of its text and no sizing. -/
theorem Directive.readGrid_of_no_slash (special : Bool) {text : String}
    (h : '/' ∉ text.toList) : readGrid special text = (GridSize.ofText text, "") := by
  have hother : ∀ c ∈ text.toList, (c != '/') = true := by
    intro c hc
    rw [bne_iff_ne]
    rintro rfl
    exact h hc
  -- So the whole text stands before the slash.
  have htake : text.toList.takeWhile (· != '/') = text.toList := List.takeWhile_eq_self_iff.2 hother
  have hdrop : text.toList.dropWhile (· != '/') = [] := List.dropWhile_eq_nil_iff.2 hother
  rw [readGrid, htake, hdrop, GridSize.ofText_trim]
  rfl

end GridStyle
