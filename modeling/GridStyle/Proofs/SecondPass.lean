import GridStyle.Proofs.Expansion.Arrival
import GridStyle.Proofs.Grid
import GridStyle.Proofs.HostSizing

/-!
# The Second Pass

The second pass visits every cell of the grid once and in order (`history_secondPass`). Each time
that it composes a rule, the text of the rule is among the declarations of the selector in the end
(`mem_declarations_of_arrival`).
-/

namespace GridStyle

open Expanding

/-! ### Arrivals in cells -/

/-- What comes up in the steps for the elements of a list comes up in one of the steps, and the
events of that step are among those of all. -/
theorem exists_of_mem_along {α β : Type} {step : α → Expanding Unit}
    {arrivals : α → Expansion → List β} (happens : α → Expansion → List Event) {elements : List α}
    {s s' : Expansion} {b : β} (hrun : (elements.forM step).perform s = (.ok PUnit.unit, s'))
    (h : b ∈ along step arrivals elements s) :
    ∃ a ∈ elements, ∃ u u', (step a).perform u = (.ok (), u') ∧ b ∈ arrivals a u ∧
      (happens a u).Sublist (stages happens step elements s) := by
  induction elements generalizing s with
  | nil => exact absurd h List.not_mem_nil
  | cons a elements ih =>
    rw [perform_forM_cons, perform_bind_ok] at hrun
    obtain ⟨_, s₁, ha, hrest⟩ := hrun
    -- It comes up in the first step, or else in those after it.
    rw [along, andThen_of_ok ha, List.mem_append] at h
    rw [stages, ha]
    obtain h | h := h
    · exact ⟨a, List.mem_cons_self, s, s₁, ha, h, List.sublist_append_left _ _⟩
    · obtain ⟨c, hc, u, u', hstep, hb, hevents⟩ := ih hrest h
      exact ⟨c, List.mem_cons_of_mem a hc, u, u', hstep, hb,
        hevents.trans (List.sublist_append_right _ _)⟩

/-- The arrivals of the second pass, each with the cell that is visited. -/
def Place.secondArrivals (f : Filling) (kit : Toolkit) (seed : UInt64) (default : GridSize)
    (p : Place) : List (Cell × Arrival) :=
  along (expandCell kit false (p.fill f))
    (fun cell s => (p.arrivals f kit cell false (s.enter false cell)).map fun a => (cell, a))
    (visitedCells kit seed (p.fill f) default) ((firstPass kit seed (p.fill f)).restart seed)

/-- The cells and the states of the arrivals that compose something. -/
def compositions (arrivals : List (Cell × Arrival)) : List (Cell × Expansion) :=
  arrivals.filterMap fun a => a.2.state?.map fun s => (a.1, s)

theorem compositions_append (arrivals arrivals' : List (Cell × Arrival)) :
    compositions (arrivals ++ arrivals') = compositions arrivals ++ compositions arrivals' :=
  List.filterMap_append

/-- The states in which the first pass composes what stands in a place. -/
def Place.firstReached (f : Filling) (kit : Toolkit) (seed : UInt64) (p : Place) :
    List (Cell × Expansion) :=
  compositions ((p.firstArrivals f kit seed).map fun a => (Cell.discovery, a))

/-- The states in which the second pass composes what stands in a place, each with its cell. -/
def Place.secondReached (f : Filling) (kit : Toolkit) (seed : UInt64) (default : GridSize)
    (p : Place) : List (Cell × Expansion) :=
  compositions (p.secondArrivals f kit seed default)

/-- What comes up once at most in the visit of a cell has different cells, in their order. -/
theorem map_fst_compositions_sublist {step : Cell → Expanding Unit}
    {arrivals : Cell → Expansion → List Arrival} (honce : ∀ cell s, (arrivals cell s).length ≤ 1)
    (cells : List Cell) (s : Expansion) :
    ((compositions (along step (fun cell s => (arrivals cell s).map fun a => (cell, a))
      cells s)).map Prod.fst).Sublist cells := by
  induction cells generalizing s with
  | nil => exact List.Sublist.slnil
  | cons cell cells ih =>
    have hrest : ((compositions ((step cell).andThen (fun _ => along step (fun cell s =>
        (arrivals cell s).map fun a => (cell, a)) cells) s)).map Prod.fst).Sublist cells := by
      rw [andThen]
      split
      · exact ih _
      · exact List.nil_sublist cells
    rw [along, compositions_append, List.map_append]
    -- One arrival at most is that of the first cell.
    cases hfirst : arrivals cell s with
    | nil => exact hrest.cons cell
    | cons a as =>
      have hlength := honce cell s
      rw [hfirst, List.length_cons] at hlength
      obtain rfl : as = [] := List.eq_nil_of_length_eq_zero (by omega)
      cases a with
      | composes selector u => exact hrest.cons_cons cell
      | searches u => exact hrest.cons cell

/-- The second pass comes to a place in no block once at most for every cell. -/
theorem Place.cells_secondReached {f : Filling} {kit : Toolkit} {seed : UInt64}
    {default : GridSize} {p : Place} (h : p.OutsideBlocks) :
    ((p.secondReached f kit seed default).map Prod.fst).Sublist
      (visitedCells kit seed (p.fill f) default) :=
  map_fst_compositions_sublist (fun _ _ => p.length_arrivals_le h _) _ _

/-! ### What the second pass leaves -/

/-- A walk leaves the visits alone. -/
theorem kept_history (cell : Cell) (initial : Bool) (history : Array Cell) :
    Kept cell initial (fun _ => True) fun s => s.discovering = initial ∧ s.history = history := by
  refine Kept.of_apply (fun _ hs => hs) fun {s c} hs _ => ?_
  cases c with
  | note kind => cases kind <;> exact hs
  | cellGrid size sizing =>
    rw [Expansion.apply, Expansion.setCellGrid]
    split <;> exact hs
  | _ => exact hs

section Generation

variable {kit : Toolkit} {seed : UInt64} {tokens : List Token} {default : GridSize}
  {compiled : Compiled}

/-- The visits of cells are recorded in order. -/
theorem history_cells {cells : List Cell} {s s' : Expansion}
    (h : (cells.forM (expandCell kit false tokens)).perform s = (.ok PUnit.unit, s')) :
    s'.history.toList = s.history.toList ++ cells := by
  induction cells generalizing s with
  | nil =>
    rw [perform_forM_nil_ok] at h
    rw [← h, List.append_nil]
  | cons cell cells ih =>
    rw [perform_forM_cons, perform_bind_ok] at h
    obtain ⟨_, s₁, hcell, hrest⟩ := h
    rw [perform_expandCell] at hcell
    -- The cell is recorded when it is entered.
    have hkept : _ ∧ ((expandTokens kit cell false tokens).perform
        (s.enter false cell)).2.history = s.history.push cell :=
      (kept_history cell false (s.history.push cell)).expandTokens (fun _ _ => trivial) ⟨rfl, rfl⟩
    rw [hcell] at hkept
    rw [ih hrest, hkept.2, Array.toList_push, List.append_assoc]
    rfl

/-- The second pass visits the cells of the grid once and in order. -/
theorem history_secondPass (h : generate kit seed tokens default = .ok compiled) :
    (secondPass kit seed tokens default).history.toList = compiled.grid.cells :=
  history_cells (generate_passes h).2.1

/-- All that is written in its own place is written. -/
theorem inPlace_sublist_written (selector : String) (defined : Bool) (es : List Event) :
    (inPlace selector es).Sublist (written selector defined es) := by
  induction es generalizing defined with
  | nil => exact List.Sublist.slnil
  | cons e es ih =>
    rw [inPlace_cons, written]
    exact (List.sublist_append_left _ _).append (ih _)

/-- What the events of the second pass leave in their own places for a selector is among its
declarations in the end. -/
theorem inPlace_sublist_declarations (h : generate kit seed tokens default = .ok compiled)
    (selector : String) :
    (inPlace selector (secondEvents kit seed tokens default)).Sublist
      (((secondPass kit seed tokens default).rules.toList.lookup selector).getD []) := by
  rw [lookup_eq_bucket, (records_secondPass (fun _ => True) h).bucket selector trivial]
  exact (inPlace_sublist_written selector _ _).trans (List.sublist_append_right _ _)

/-- A selector of a cell has what the second pass writes for it, and nothing from the first. -/
theorem lookup_secondPass_of_isCell (h : generate kit seed tokens default = .ok compiled)
    {selector : String} (hcell : Selector.isCell selector = true) :
    ((secondPass kit seed tokens default).rules.toList.lookup selector).getD [] =
      inPlace selector (secondEvents kit seed tokens default) := by
  -- Between the passes the selectors of cells are emptied.
  have hforgotten : ((firstPass kit seed tokens).restart seed).bucket selector = [] := by
    change ((firstPass kit seed tokens).rules.dropCells.get? selector).getD [] = []
    rw [RuleStore.get?_dropCells, if_pos hcell]
    rfl
  -- The host is no cell, so no sizing is moved to the selector.
  have hne : selector ≠ Selector.host := by
    rintro rfl
    exact absurd hcell (by decide)
  rw [lookup_eq_bucket, (records_secondPass (fun _ => True) h).bucket selector trivial,
    hforgotten, List.nil_append, written_of_ne_host hne]

/-- Each time that the second pass composes a rule for a cell, its value has texts there, and the
declaration that is made of them is one of the selector in the end. -/
theorem mem_declarations_of_arrival {p : Place} {declaration : Rule}
    (h : generate kit seed (p.fill (.rule declaration)) default = .ok compiled)
    (huse : declaration.property ≠ "@use") (hgrid : declaration.property ≠ "@grid") {cell : Cell}
    {selector : String} {s : Expansion}
    (harrival : (cell, .composes selector s) ∈
      p.secondArrivals (.rule declaration) kit seed default) :
    cell ∈ compiled.grid.cells ∧
    ∃ texts c, (groupTexts kit.functions cell declaration.value).perform s.context =
        (.ok texts, c) ∧
      ∀ text, text = propertyText kit (PropertyKind.ofName declaration.property) (some selector)
          declaration.property
          (propertyValue (PropertyKind.ofName declaration.property) cell texts) →
        text ≠ "" →
        text ∈ ((secondPass kit seed (p.fill (.rule declaration)) default).rules.toList.lookup
          selector).getD [] := by
  obtain ⟨-, hsecond, hvisited, -⟩ := generate_passes h
  rw [hvisited] at hsecond
  -- The rule is composed in the visit of one of the cells, which is a walk of its own.
  obtain ⟨cell', hcell, u, u', hrun, hmem, hevents⟩ :=
    exists_of_mem_along (cellEvents kit false (p.fill (.rule declaration))) hsecond harrival
  obtain ⟨a, ha, heq⟩ := List.mem_map.1 hmem
  obtain ⟨rfl, rfl⟩ := Prod.mk.inj heq
  rw [perform_expandCell] at hrun
  obtain ⟨before, after, v, hshown, -, hrule⟩ :=
    exists_events_of_arrival (eventLaw_records (fun _ => True) kit cell') hrun ha
  rw [declareRule, perform_bind_ok] at hrule
  obtain ⟨text, s₁, hcompose, -⟩ := hrule
  obtain ⟨texts, c, hc, -, -⟩ := (perform_composeRule_ok kit cell' huse).1 hcompose
  refine ⟨hvisited ▸ hcell, texts, c, hc, fun text htext hne => ?_⟩
  -- The event of the rule is one of the visit of the cell.
  rw [ruleEvents_of_ne huse hc, ruleEvent, if_neg hgrid, ← htext] at hshown
  have hevent : Event.declaration selector text ∈
      cellEvents kit false (p.fill (.rule declaration)) cell' u := by
    rw [cellEvents, hshown]
    simp
  refine (inPlace_sublist_declarations h selector).subset
    (List.mem_flatMap.2 ⟨_, hevents.subset hevent, ?_⟩)
  rw [Event.selector, Event.text, placed, if_pos ⟨hne, rfl⟩]
  exact List.mem_singleton_self text

end Generation

end GridStyle
