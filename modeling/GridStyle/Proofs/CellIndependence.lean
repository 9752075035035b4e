import GridStyle.Proofs.CellTree
import GridStyle.Proofs.Expansion.EventLaw
import GridStyle.Proofs.Expansion.Search
import GridStyle.Proofs.Grid
import GridStyle.Proofs.Steady

/-!
# Cells Are Independent

In a tree for cells alone, whose values and conditions do not depend on the shared context, every
cell is composed as if it were the only one. The whole run goes through the cells one after the
other in one store; next to the run of a single cell in a store of its own it has the same outcome
and the same declarations, after those of the cells before it (`Beside`). Nothing gets mixed up
since the selectors of different cells are different.

* `perform_cells`: what a run over some cells adds is what they add alone, in order.
* `cells_independent`: so the rules of the stylesheet are those of the single cells.
-/

namespace GridStyle

/-! ### One cell alone -/

/-- The visit of a single cell in a fresh state. -/
def composeAlone (kit : Toolkit) (seed : UInt64) (tokens : List Token) (cell : Cell) :
    Except Failure Unit × Expansion :=
  (expandCell kit false tokens cell).perform (Expansion.ofSeed seed)

/-- The declarations that a cell gets when it is composed alone. -/
def bucketsAlone (kit : Toolkit) (seed : UInt64) (tokens : List Token) (cell : Cell) :
    RuleStore.Buckets :=
  (composeAlone kit seed tokens cell).2.rules.toList

/-- The selector is one of the cell, with a pseudo part that does not start with a digit. -/
def OwnSelector (cell : Cell) (selector : String) : Prop :=
  ∃ part, Selector.NoDigitFirst part ∧ selector = Selector.ofCell cell part

/-- Cells at different places have no selector in common. -/
theorem OwnSelector.same_place {cell cell' : Cell} {selector : String}
    (h : OwnSelector cell selector) (h' : OwnSelector cell' selector) :
    cell.x = cell'.x ∧ cell.y = cell'.y ∧ cell.z = cell'.z := by
  obtain ⟨part, hpart, rfl⟩ := h
  obtain ⟨part', hpart', heq⟩ := h'
  obtain ⟨hx, hy, hz, -⟩ := Selector.ofCell_inj hpart hpart' heq
  exact ⟨hx, hy, hz⟩

/-- The token is for cells alone and steady, and no part of its selector starts with a digit. -/
structure Token.Separable (kit : Toolkit) (token : Token) : Prop where
  /-- The token is for cells alone. -/
  ofCells : token.OfCells
  /-- No part of its selector starts with a digit. -/
  noDigit : ∀ id selector styles, token = .pseudo id selector styles →
    ∀ part ∈ selectorParts (Selector.normalize selector), Selector.NoDigitFirst part
  /-- Its value is steady. -/
  value : ∀ declaration, token = .rule declaration → ∀ cell,
    (groupTexts kit.functions cell declaration.value).Steady
  /-- Its condition is steady. -/
  holds : ∀ name arguments styles, token = .condition name arguments styles → ∀ cell,
    (GridStyle.holds kit cell name arguments).Steady

/-- The whole run on the left, which has composed `base` before this cell, and the run of the cell
alone on the right. -/
structure Beside (cell : Cell) (base : RuleStore.Buckets) (s t : Expansion) : Prop where
  /-- Neither looks for a grid. -/
  discovering : s.discovering = false ∧ t.discovering = false
  /-- Neither has composed special blocks. -/
  composed : s.composed = [] ∧ t.composed = []
  /-- Both stores are in order. -/
  wellFormed : s.rules.WellFormed ∧ t.rules.WellFormed
  /-- The declarations of the cell stand after those before. -/
  rules : s.rules.toList = base ++ t.rules.toList
  /-- The cell alone has declarations of its own only. -/
  own : ∀ selector ∈ t.rules.toList.map Prod.fst, OwnSelector cell selector

section Walk

variable {kit : Toolkit} {cell : Cell} {base : RuleStore.Buckets}

/-- A declaration of the cell comes to the same place in both stores. -/
theorem Beside.push (hbase : ∀ selector ∈ base.map Prod.fst, ¬ OwnSelector cell selector)
    {s t : Expansion} (h : Beside cell base s t) {selector : String}
    (hown : OwnSelector cell selector) (text : String) :
    Beside cell base (s.push selector text) (t.push selector text) := by
  have hs := RuleStore.toList_push h.wellFormed.1 selector text
  have ht := RuleStore.toList_push h.wellFormed.2 selector text
  refine ⟨h.discovering, h.composed,
    ⟨h.wellFormed.1.push selector text, h.wellFormed.2.push selector text⟩, ?_, ?_⟩
  · rw [Expansion.push, Expansion.push, hs, ht]
    split
    · exact h.rules
    · -- No bucket of `base` has the selector, so the declaration passes over `base`.
      rw [h.rules]
      exact RuleStore.appendTo_append text _ fun hmem => hbase selector hmem hown
  · intro other hother
    rw [Expansion.push, ht] at hother
    split at hother
    · exact h.own other hother
    · rw [RuleStore.mem_keys_appendTo] at hother
      obtain rfl | hold := hother
      · exact hown
      · exact h.own other hold

/-- The whole run and the run of the cell alone stay beside each other. -/
theorem coupling_beside (kit : Toolkit)
    (hbase : ∀ selector ∈ base.map Prod.fst, ¬ OwnSelector cell selector) :
    Coupling kit cell false (Token.Separable kit) (Beside cell base) := by
  -- A steady action has the same outcome in any context.
  have hact : ∀ {α : Type} {action : Action α} {s t : Expansion}, action.Steady →
      Beside cell base s t →
      InStep (Beside cell base) (Expanding.act action) s (Expanding.act action) t := by
    rintro α action s t ⟨outcome, houtcome⟩ h
    unfold InStep
    rw [Expanding.perform_act, Expanding.perform_act, houtcome, houtcome]
    exact ⟨rfl, h⟩
  refine ⟨fun h => h.discovering, ?_, ?_, ?_, ?_, ?_⟩
  · exact fun hinitial => absurd hinitial Bool.false_ne_true
  · intro s t id list styles h _
    rw [h.composed.1, h.composed.2]
  · exact fun h ha => hact (ha.value _ rfl cell) h
  · exact fun h ha => hact (ha.holds _ _ _ rfl cell) h
  · intro s t c h hc
    obtain ⟨part, text, rfl, hpart⟩ | ⟨keyframes, rfl, -⟩ | ⟨kind, rfl⟩ :=
      hc.of_cells fun _ ha => ha.ofCells
    · -- Only declarations matter for the stores.
      refine Beside.push hbase h ⟨part, ?_, rfl⟩ text
      obtain rfl | ⟨id, selector, styles, ha, hmem⟩ := hpart
      · exact Selector.noDigitFirst_empty
      · exact ha.noDigit id selector styles rfl part hmem
    · exact ⟨h.discovering, h.composed, h.wellFormed, h.rules, h.own⟩
    · cases kind <;> exact ⟨h.discovering, h.composed, h.wellFormed, h.rules, h.own⟩

end Walk

/-! ### All cells -/

section Cells

variable {kit : Toolkit} (seed : UInt64) {tokens : List Token}

/-- The visit of a cell in the whole run has the outcome of the visit alone, and adds the
declarations that the cell gets alone. -/
theorem perform_expandCell_beside (hsep : ∀ t ∈ Token.within tokens, t.Separable kit) {cell : Cell}
    {s : Expansion} (hcomposed : s.composed = []) (hwell : s.rules.WellFormed)
    (hbase : ∀ selector ∈ s.rules.toList.map Prod.fst, ¬ OwnSelector cell selector) :
    ((expandCell kit false tokens cell).perform s).1 = (composeAlone kit seed tokens cell).1 ∧
      Beside cell s.rules.toList ((expandCell kit false tokens cell).perform s).2
        (composeAlone kit seed tokens cell).2 := by
  have hstart : Beside cell s.rules.toList (s.enter false cell)
      ((Expansion.ofSeed seed).enter false cell) := by
    have hnil : ((Expansion.ofSeed seed).enter false cell).rules.toList = [] := rfl
    refine ⟨⟨rfl, rfl⟩, ⟨hcomposed, rfl⟩, ⟨hwell, RuleStore.wellFormed_empty⟩, ?_, ?_⟩
    · rw [hnil, List.append_nil]
      rfl
    · rw [hnil]
      exact fun selector hselector => absurd hselector List.not_mem_nil
  exact (coupling_beside kit hbase).inStep_expandTokens tokens hsep hstart

/-- A run over some cells that succeeds: every cell succeeds alone, and has declarations of its
own only; together these are the declarations that the run adds. -/
theorem perform_cells (hsep : ∀ t ∈ Token.within tokens, t.Separable kit) {cells : List Cell}
    (hplaces : cells.Pairwise fun a b => ¬ (a.x = b.x ∧ a.y = b.y ∧ a.z = b.z))
    {s s' : Expansion} (hcomposed : s.composed = []) (hwell : s.rules.WellFormed)
    (hbase : ∀ cell ∈ cells, ∀ selector ∈ s.rules.toList.map Prod.fst,
      ¬ OwnSelector cell selector)
    (h : (cells.forM (expandCell kit false tokens)).perform s = (.ok (), s')) :
    (∀ cell ∈ cells, (composeAlone kit seed tokens cell).1 = .ok () ∧
      ∀ selector ∈ (bucketsAlone kit seed tokens cell).map Prod.fst,
        OwnSelector cell selector) ∧
      s'.rules.toList = s.rules.toList ++ (cells.map (bucketsAlone kit seed tokens)).flatten := by
  induction cells generalizing s with
  | nil =>
    rw [Expanding.perform_forM_nil_ok] at h
    rw [← h]
    exact ⟨fun cell hcell => absurd hcell List.not_mem_nil, (List.append_nil _).symm⟩
  | cons cell cells ih =>
    rw [Expanding.perform_forM_cons, Expanding.perform_bind_ok] at h
    obtain ⟨_, s₁, hcell, hrest⟩ := h
    rw [List.forall_mem_cons] at hbase
    obtain ⟨hplace, hplaces⟩ := List.pairwise_cons.1 hplaces
    obtain ⟨houtcome, hbeside⟩ :=
      perform_expandCell_beside seed hsep hcomposed hwell hbase.1
    rw [hcell] at houtcome hbeside
    have hrules : s₁.rules.toList =
        s.rules.toList ++ bucketsAlone kit seed tokens cell := hbeside.rules
    -- The declarations of this cell are added to those that the next cells find.
    have hbase₁ : ∀ cell' ∈ cells, ∀ selector ∈ s₁.rules.toList.map Prod.fst,
        ¬ OwnSelector cell' selector := by
      intro cell' hcell' selector hselector hown
      rw [hrules, List.map_append, List.mem_append] at hselector
      obtain hold | hnew := hselector
      · exact hbase.2 cell' hcell' selector hold hown
      · exact hplace cell' hcell' ((hbeside.own selector hnew).same_place hown)
    obtain ⟨halone, hadded⟩ :=
      ih hplaces hbeside.composed.1 hbeside.wellFormed.1 hbase₁ hrest
    refine ⟨?_, ?_⟩
    · rw [List.forall_mem_cons]
      exact ⟨⟨houtcome.symm, hbeside.own⟩, halone⟩
    · rw [hadded, hrules, List.map_cons, List.flatten_cons, List.append_assoc]

end Cells

/-- The rules of several lists of cell selectors, one list after the other. -/
private theorem blocks_flatten (rules : List RuleStore.Buckets) :
    Stylesheet.blocks rules.flatten = String.join (rules.map Stylesheet.blocks) := by
  induction rules with
  | nil => rfl
  | cons buckets rules ih =>
    rw [List.flatten_cons, Stylesheet.blocks_append, List.map_cons, String.join_cons, ih]

/-- Rules of cells alone stand in the section of the cells, one list after the other. -/
private theorem ofRules_flatten {rules : List RuleStore.Buckets}
    (h : ∀ buckets ∈ rules, ∀ selector ∈ buckets.map Prod.fst,
      Selector.isSpecial selector = false) :
    Stylesheet.ofRules rules.flatten =
      { cells := String.join (rules.map fun buckets => (Stylesheet.ofRules buckets).cells) } := by
  have hall : ∀ selector ∈ rules.flatten.map Prod.fst, Selector.isSpecial selector = false := by
    intro selector hselector
    rw [List.map_flatten, List.mem_flatten] at hselector
    obtain ⟨selectors, hselectors, hselector⟩ := hselector
    obtain ⟨buckets, hbuckets, rfl⟩ := List.mem_map.1 hselectors
    exact h buckets hbuckets selector hselector
  have hcells : ∀ buckets ∈ rules,
      Stylesheet.blocks buckets = (Stylesheet.ofRules buckets).cells := by
    intro buckets hbuckets
    rw [Stylesheet.ofRules_of_not_isSpecial (h buckets hbuckets)]
  rw [Stylesheet.ofRules_of_not_isSpecial hall, blocks_flatten, List.map_congr_left hcells]

/-- A steady tree for cells alone, whose selectors have no part that starts with a digit. -/
theorem separable_of_steady {kit : Toolkit} {tokens : List Token}
    (hcells : ∀ t ∈ Token.within tokens, t.OfCells) (hsteady : Token.Steady kit tokens)
    (hdigit : ∀ id selector styles, .pseudo id selector styles ∈ Token.within tokens →
      ∀ part ∈ selectorParts selector, Selector.NoDigitFirst part) :
    ∀ t ∈ Token.within tokens, t.Separable kit := by
  intro t ht
  refine ⟨hcells t ht, ?_, ?_, ?_⟩
  · rintro id selector styles rfl
    -- A block for cells alone is not written with the host's own name, so its parts stay.
    have hspecial : ¬ Selector.isSpecial (Selector.normalize selector) = true := by
      rw [Bool.not_eq_true]
      exact hcells _ ht
    rw [Selector.normalize_eq_self_of_not_special hspecial]
    exact hdigit id selector styles ht
  · rintro declaration rfl
    exact hsteady.value ht
  · rintro name arguments styles rfl
    exact hsteady.holds ht

/-- A tree that sets no grid, has no block for the host or the container, is steady, and has no
pseudo part that starts with a digit: its stylesheet has rules of cells only, and they are those
of each cell of the default grid composed alone in a fresh state, one cell after the other. Alone,
every cell has declarations under its own selectors only. -/
theorem cells_independent {kit : Toolkit} {seed : UInt64} {tokens : List Token}
    {default : GridSize} {compiled : Compiled} (hcells : ∀ t ∈ Token.within tokens, t.OfCells)
    (hsteady : Token.Steady kit tokens)
    (hdigit : ∀ id selector styles, .pseudo id selector styles ∈ Token.within tokens →
      ∀ part ∈ selectorParts selector, Selector.NoDigitFirst part)
    (h : generate kit seed tokens default = .ok compiled) :
    compiled.grid = default ∧ compiled.styles.host = "" ∧ compiled.styles.container = "" ∧
      (∀ cell ∈ default.cells, (composeAlone kit seed tokens cell).1 = .ok () ∧
        ∀ selector ∈ (bucketsAlone kit seed tokens cell).map Prod.fst,
          OwnSelector cell selector) ∧
      compiled.styles.cells = String.join (default.cells.map fun cell =>
        (Stylesheet.ofRules (bucketsAlone kit seed tokens cell)).cells) := by
  have hsep := separable_of_steady hcells hsteady hdigit
  -- The first pass finds no grid and leaves only what belongs to cells, which is dropped.
  obtain ⟨s₁, s₂, s₃, keyframes, hfirst, hsecond, -, rfl⟩ := generate_eq_ok h
  have hs₁ := cellsOnly_of_expandCell hcells (Expansion.cellsOnly_ofSeed seed) hfirst
  have hgrid : s₁.grid.getD default = default := by rw [hs₁.grid, Option.getD_none]
  rw [hgrid] at hsecond ⊢
  have hnil := hs₁.toList_restart seed
  have hcomposed : (s₁.restart seed).composed = [] := hs₁.composed
  have hwell : (s₁.restart seed).rules.WellFormed := hs₁.wellFormed.dropCells
  have hbase : ∀ cell ∈ default.cells, ∀ selector ∈ (s₁.restart seed).rules.toList.map Prod.fst,
      ¬ OwnSelector cell selector := by
    intro cell _ selector hselector
    rw [hnil] at hselector
    exact absurd hselector List.not_mem_nil
  obtain ⟨halone, hrules⟩ :=
    perform_cells seed hsep default.pairwise_cells hcomposed hwell hbase hsecond
  rw [hnil, List.nil_append] at hrules
  -- What a cell has alone is its own, so all rules stand in the section of the cells.
  have hspecial : ∀ buckets ∈ default.cells.map (bucketsAlone kit seed tokens),
      ∀ selector ∈ buckets.map Prod.fst, Selector.isSpecial selector = false := by
    rw [List.forall_mem_map]
    intro cell hcell selector hselector
    obtain ⟨part, -, rfl⟩ := (halone cell hcell).2 selector hselector
    exact Selector.isSpecial_ofCell cell part
  rw [hrules, ofRules_flatten hspecial, List.map_map]
  exact ⟨rfl, rfl, rfl, halone, rfl⟩

/-! ### What a cell has alone -/

/-- Without grid directives a walk adds the texts of its events, one after the other. -/
theorem eventLaw_rules (kit : Toolkit) (cell : Cell) :
    EventLaw kit cell (fun _ => True) (fun _ _ => True) fun es s s' => directives es = [] →
      s'.rules = es.foldl (fun rules e => rules.push e.selector e.text) s.rules := by
  refine ⟨fun h h' hnone => ?_, fun hrules _ _ _ _ _ => hrules, fun _ _ _ _ _ _ => rfl,
    fun _ h _ => ?_, fun {selector declaration s s'} _ huse h hnone => ?_, fun _ => trivial,
    fun _ _ _ _ _ => trivial⟩
  · rw [directives_append, List.append_eq_nil_iff] at hnone
    rw [List.foldl_append, h' hnone.2, h hnone.1]
  · obtain ⟨c, found, rfl, -⟩ := exists_adopt_of_seekHostGrid h
    cases found <;> rfl
  · rw [declareRule, Expanding.perform_bind_ok] at h
    obtain ⟨text, s₁, hrule, hpush⟩ := h
    rw [Expanding.perform_modify_ok] at hpush
    obtain ⟨texts, c, hc, rfl, rfl⟩ :=
      (Expanding.perform_composeRule_ok kit cell huse).1 hrule
    rw [ruleEvents_of_ne huse hc] at hnone ⊢
    have hgrid : declaration.property ≠ "@grid" := by
      intro hgrid
      rw [ruleEvent, if_pos hgrid] at hnone
      exact absurd hnone (List.cons_ne_nil _ _)
    rw [ruleEvent, if_neg hgrid, ← hpush, gridChanges, if_neg hgrid]
    cases PropertyKind.ofName declaration.property <;> rfl

/-- Without grid directives a cell alone has the texts of its events. -/
theorem bucketsAlone_eq {kit : Toolkit} {seed : UInt64} {tokens : List Token} {cell : Cell}
    (hok : (composeAlone kit seed tokens cell).1 = .ok ())
    (hnone : directives (cellEvents kit false tokens cell (.ofSeed seed)) = []) :
    bucketsAlone kit seed tokens cell =
      (cellEvents kit false tokens cell (.ofSeed seed)).foldl (fun buckets e =>
        if e.text = "" then buckets else RuleStore.appendTo e.selector e.text buckets) [] := by
  have hpushes : ∀ (es : List Event) {rules : RuleStore}, rules.WellFormed →
      (es.foldl (fun rules e => rules.push e.selector e.text) rules).toList =
        es.foldl (fun buckets e =>
          if e.text = "" then buckets else RuleStore.appendTo e.selector e.text buckets)
          rules.toList := by
    intro es
    induction es with
    | nil => exact fun _ => rfl
    | cons e es ih =>
      intro rules hwell
      rw [List.foldl_cons, List.foldl_cons, ih (hwell.push _ _), RuleStore.toList_push hwell]
  have hrun : (expandCell kit false tokens cell).perform (Expansion.ofSeed seed) =
      (.ok (), (composeAlone kit seed tokens cell).2) := Prod.ext hok rfl
  have hrules := (eventLaw_rules kit cell).expandCell (fun _ _ => trivial) hrun hnone
  rw [bucketsAlone, hrules]
  exact hpushes _ RuleStore.wellFormed_empty

/-- A rule of all cells, and one for two states of the cells with odd numbers. -/
def hoveredCells : List Token :=
  [.rule (.ofText "color" "red"),
    .condition "@odd" [] [.pseudo 0 ":hover, :focus" [.ofText "color" "blue"]]]

/-- Two cells in a row get what each of them gets alone. -/
theorem cells_independent_hovered :
    ∃ compiled, generate .odd 1 hoveredCells ⟨1, 2, 1⟩ = .ok compiled ∧
      compiled.styles.host = "" ∧ compiled.styles.container = "" ∧
      compiled.styles.cells = "#cell-1-1-1 \x7b\n  color: red;\n\x7d\n" ++
        "#cell-1-1-1:hover \x7b\n  color: blue;\n\x7d\n" ++
        "#cell-1-1-1:focus \x7b\n  color: blue;\n\x7d\n" ++
        "#cell-1-2-1 \x7b\n  color: red;\n\x7d\n" := by
  have hwithin : Token.within hoveredCells =
      [.rule (.ofText "color" "red"),
        .condition "@odd" [] [.pseudo 0 ":hover, :focus" [.ofText "color" "blue"]],
        .pseudo 0 ":hover, :focus" [.ofText "color" "blue"], .rule (.ofText "color" "blue")] :=
    rfl
  have hcells : ∀ t ∈ Token.within hoveredCells, t.OfCells := by
    rw [hwithin]
    decide
  have hdigit : ∀ id selector styles, .pseudo id selector styles ∈ Token.within hoveredCells →
      ∀ part ∈ selectorParts selector, Selector.NoDigitFirst part := by
    intro id selector styles hmem
    have hselector : selector = ":hover, :focus" := by
      rw [hwithin] at hmem
      simp_all
    have hparts : selectorParts selector = [":hover", ":focus"] := by
      rw [hselector]
      rfl
    rw [hparts]
    simp [Selector.NoDigitFirst]
  obtain ⟨compiled, h⟩ := exists_generate_eq
    (show (generate .odd 1 hoveredCells ⟨1, 2, 1⟩).isOk = true by decide +kernel)
  obtain ⟨-, hhost, hcontainer, -, hcellTexts⟩ := cells_independent hcells
    (Token.Steady.of_toolkit Toolkit.steady_odd hoveredCells) hdigit h
  have hfirst : bucketsAlone .odd 1 hoveredCells ⟨1, 1, 1, 1, ⟨1, 2, 1⟩⟩ =
      [("#cell-1-1-1", ["color: red;"]), ("#cell-1-1-1:hover", ["color: blue;"]),
        ("#cell-1-1-1:focus", ["color: blue;"])] :=
    (bucketsAlone_eq (by decide +kernel) (by decide +kernel)).trans (by decide +kernel)
  have hsecond : bucketsAlone .odd 1 hoveredCells ⟨1, 2, 1, 2, ⟨1, 2, 1⟩⟩ =
      [("#cell-1-2-1", ["color: red;"])] :=
    (bucketsAlone_eq (by decide +kernel) (by decide +kernel)).trans (by decide +kernel)
  have hcells' : GridSize.cells ⟨1, 2, 1⟩ =
      [⟨1, 1, 1, 1, ⟨1, 2, 1⟩⟩, ⟨1, 2, 1, 2, ⟨1, 2, 1⟩⟩] := by decide +kernel
  refine ⟨compiled, h, hhost, hcontainer, ?_⟩
  rw [hcellTexts, hcells', List.map_cons, List.map_singleton, hfirst, hsecond]
  decide +kernel

end GridStyle
