import GridStyle.Proofs.CellTree
import GridStyle.Proofs.Expansion.Search
import GridStyle.Proofs.Grid
import GridStyle.Proofs.KeyframeStore

/-!
# The Grid of the Tree and the Default Grid

Writing a grid in front of a tree for cells alone is the same as passing it as the default. The
first pass stops composing at the directive in one run, and composes the whole tree in the other.
But what it leaves is forgotten, up to the keyframes, which the second pass registers anyway. From
there on the runs are level (`Level`): they have the same declarations and the same context.

* `coupling_level`: walks keep runs level.
* `keyframes_of_expandTokens`: a walk registers the keyframes among the tokens.
* `generate_gridText`: the two ways to set the grid have the same styles.
-/

namespace GridStyle

/-! ### Level runs -/

/-- Two runs have the same declarations, the same visits and the same context, and no special
block is composed. What they know of grids, keyframes and features may differ. -/
structure Level (s t : Expansion) : Prop where
  /-- No special block is composed. -/
  composed : s.composed = [] ∧ t.composed = []
  /-- The stores are in order. -/
  wellFormed : s.rules.WellFormed ∧ t.rules.WellFormed
  /-- The declarations are the same. -/
  rules : s.rules.toList = t.rules.toList
  /-- The visits are the same. -/
  history : s.history = t.history
  /-- The context is the same. -/
  context : s.context = t.context

/-- Walks of the second pass keep runs level. -/
theorem coupling_level (kit : Toolkit) (cell : Cell) :
    Coupling kit cell false Token.OfCells fun s t =>
      (s.discovering = false ∧ t.discovering = false) ∧ Level s t := by
  have hact : ∀ {α : Type} (action : Action α) {s t : Expansion},
      (s.discovering = false ∧ t.discovering = false) ∧ Level s t →
      InStep (fun s t => (s.discovering = false ∧ t.discovering = false) ∧ Level s t)
        (Expanding.act action) s (Expanding.act action) t := by
    rintro α action s t ⟨hdiscovering, h⟩
    unfold InStep
    rw [Expanding.perform_act, Expanding.perform_act, h.context]
    exact ⟨rfl, hdiscovering, h.composed, h.wellFormed, h.rules, h.history, rfl⟩
  refine ⟨fun h => h.1, ?_, ?_, fun h _ => hact _ h, fun h _ => hact _ h, ?_⟩
  · exact fun hinitial => absurd hinitial Bool.false_ne_true
  · intro s t id list styles h _
    rw [h.2.composed.1, h.2.composed.2]
  · rintro s t c ⟨hdiscovering, h⟩ hc
    obtain ⟨part, text, rfl, -⟩ | ⟨keyframes, rfl, -⟩ | ⟨kind, rfl⟩ := hc.of_cells fun _ ht => ht
    · refine ⟨hdiscovering, h.composed,
        ⟨h.wellFormed.1.push _ text, h.wellFormed.2.push _ text⟩, ?_, h.history, h.context⟩
      simp only [Expansion.apply, Expansion.push]
      rw [RuleStore.toList_push h.wellFormed.1, RuleStore.toList_push h.wellFormed.2, h.rules]
    · exact ⟨hdiscovering, h.composed, h.wellFormed, h.rules, h.history, h.context⟩
    · cases kind <;>
        exact ⟨hdiscovering, h.composed, h.wellFormed, h.rules, h.history, h.context⟩

section Walk

variable {kit : Toolkit} {tokens : List Token} {cell : Cell}

/-- The visit of a cell keeps runs level. -/
theorem Level.inStep_expandCell (hcells : ∀ t ∈ Token.within tokens, t.OfCells) {s t : Expansion}
    (h : Level s t) :
    InStep Level (expandCell kit false tokens cell) s (expandCell kit false tokens cell) t := by
  have henter : Level (s.enter false cell) (t.enter false cell) := by
    refine ⟨h.composed, h.wellFormed, h.rules, ?_, h.context⟩
    rw [Expansion.enter, Expansion.enter, h.history]
  obtain ⟨houtcome, -, hlevel⟩ :=
    (coupling_level kit cell).inStep_expandTokens tokens hcells ⟨⟨rfl, rfl⟩, henter⟩
  exact ⟨houtcome, hlevel⟩

/-- A second pass keeps runs level. -/
theorem Level.inStep_cells (hcells : ∀ t ∈ Token.within tokens, t.OfCells) (cells : List Cell)
    {s t : Expansion} (h : Level s t) :
    InStep Level (cells.forM (expandCell kit false tokens)) s
      (cells.forM (expandCell kit false tokens)) t :=
  InStep.forM (fun _ _ _ _ hR => Level.inStep_expandCell hcells hR) h

/-- The keyframes sections of level runs are the same if the keyframes are. -/
theorem Level.inStep_keyframesSection {s t : Expansion}
    (hdiscovering : s.discovering = false ∧ t.discovering = false) (h : Level s t)
    (hkeyframes : s.keyframes = t.keyframes)
    (hsteps : ∀ k ∈ t.keyframes.definitions, ∀ t ∈ Token.withinSteps k.steps, t.OfCells) :
    InStep (fun s t => (s.discovering = false ∧ t.discovering = false) ∧ Level s t)
      (keyframesSection kit) s (keyframesSection kit) t := by
  unfold keyframesSection
  refine InStep.get_bind ?_
  rw [hkeyframes, h.history]
  refine InStep.bind (InStep.mapM (fun visit _ s t hR => ?_) ⟨hdiscovering, h⟩)
    fun texts s' t' hR' => InStep.pure hR' _
  refine InStep.mapM (fun k hk s t hR => ?_) hR
  unfold cellKeyframes
  exact InStep.bind ((coupling_level kit visit.1).inStep_keyframesBody (hsteps k hk) hR)
    fun body s' t' hR' => InStep.pure hR' _

/-! ### The keyframes of a walk -/

/-- A walk that meets no keyframes and no grid directive leaves both alone. -/
theorem kept_keyframes (cell : Cell) (initial : Bool) (grid : Option GridSize)
    (keyframes : KeyframeStore) :
    Kept cell initial (fun t => t.OfCells ∧ t.keyframes? = none) fun s =>
      s.discovering = initial ∧ s.grid = grid ∧ s.keyframes = keyframes := by
  refine ⟨fun hs => hs.1, fun c hs => hs, ?_⟩
  intro s c hs hc
  obtain ⟨part, text, rfl, -⟩ | ⟨k, rfl, ha⟩ | ⟨kind, rfl⟩ := hc.of_cells fun _ ht => ht.1
  · exact hs
  · exact absurd ha.2 (Option.some_ne_none k)
  · cases kind <;> exact hs

/-- Walking a token registers the keyframes that it is. -/
theorem keyframes_of_expandToken {initial : Bool} {token : Token} (hcells : token.OfCells)
    (hin : ∀ t ∈ token.inside, t.OfCells) (hflat : ∀ t ∈ token.inside, t.keyframes? = none)
    {s s' : Expansion} (hdiscovering : s.discovering = initial)
    (h : (expandToken kit cell initial token).perform s = (.ok (), s')) :
    s'.discovering = initial ∧ s'.grid = s.grid ∧
      s'.keyframes = s.keyframes.registerAll token.keyframes?.toList := by
  -- A token that is no keyframes definition has none in it either.
  cases hk : token.keyframes? with
  | some k =>
    cases token with
    | keyframes name steps =>
      rw [Token.keyframes?, Option.some.injEq] at hk
      rw [expandToken, Expanding.perform_modify_ok] at h
      rw [← h, ← hk]
      exact ⟨hdiscovering, rfl, rfl⟩
    | _ => exact absurd hk.symm (Option.some_ne_none k)
  | none =>
    have hkept : ((expandToken kit cell initial token).perform s).2.discovering = initial ∧
        ((expandToken kit cell initial token).perform s).2.grid = s.grid ∧
        ((expandToken kit cell initial token).perform s).2.keyframes = s.keyframes :=
      (kept_keyframes cell initial s.grid s.keyframes).expandToken ⟨hcells, hk⟩
        (fun t ht => ⟨hin t ht, hflat t ht⟩) ⟨hdiscovering, rfl, rfl⟩
    rw [h] at hkept
    exact hkept

/-- A walk over tokens with keyframes on top only registers these, unless it breaks off since a
grid is known. -/
theorem keyframes_of_expandTokens {initial : Bool} (hcells : ∀ t ∈ Token.within tokens, t.OfCells)
    (hflat : ∀ token ∈ tokens, ∀ t ∈ token.inside, t.keyframes? = none) {s s' : Expansion}
    (hdiscovering : s.discovering = initial) (hunknown : ¬ (initial = true ∧ s.grid.isSome))
    (h : (expandTokens kit cell initial tokens).perform s = (.ok (), s')) :
    s'.discovering = initial ∧
      s'.keyframes = s.keyframes.registerAll (Token.definitions tokens) := by
  induction tokens generalizing s with
  | nil =>
    rw [expandTokens, Expanding.perform_pure_ok] at h
    rw [← h.2]
    exact ⟨hdiscovering, rfl⟩
  | cons token rest ih =>
    rw [Token.forall_within_cons] at hcells
    rw [List.forall_mem_cons] at hflat
    rw [Expanding.perform_expandTokens_cons kit cell hunknown, Expanding.perform_bind_ok] at h
    obtain ⟨_, s₁, htoken, hrest⟩ := h
    obtain ⟨hdiscovering₁, hgrid₁, hkeyframes₁⟩ :=
      keyframes_of_expandToken hcells.1 hcells.2.1 hflat.1 hdiscovering htoken
    obtain ⟨hdiscovering', hkeyframes'⟩ :=
      ih hcells.2.2 hflat.2 hdiscovering₁ (by rw [hgrid₁]; exact hunknown) hrest
    refine ⟨hdiscovering', ?_⟩
    rw [hkeyframes', hkeyframes₁, Token.definitions_cons, KeyframeStore.registerAll_append]

/-- A second pass over some cells registers the keyframes once. -/
theorem keyframes_of_cells (hcells : ∀ t ∈ Token.within tokens, t.OfCells)
    (hflat : ∀ token ∈ tokens, ∀ t ∈ token.inside, t.keyframes? = none) {cells : List Cell}
    (hne : cells ≠ []) {s s' : Expansion}
    (h : (cells.forM (expandCell kit false tokens)).perform s = (.ok (), s')) :
    s'.discovering = false ∧
      s'.keyframes = s.keyframes.registerAll (Token.definitions tokens) := by
  induction cells generalizing s with
  | nil => exact absurd rfl hne
  | cons cell cells ih =>
    rw [Expanding.perform_forM_cons, Expanding.perform_bind_ok] at h
    obtain ⟨_, s₁, hcell, hrest⟩ := h
    rw [Expanding.perform_expandCell] at hcell
    have hunknown : ¬ (false = true ∧ (s.enter false cell).grid.isSome) :=
      fun hknown => absurd hknown.1 Bool.false_ne_true
    have hdiscovering : (s.enter false cell).discovering = false := rfl
    obtain ⟨hdiscovering₁, hkeyframes₁⟩ :=
      keyframes_of_expandTokens hcells hflat hdiscovering hunknown hcell
    change s₁.keyframes = s.keyframes.registerAll _ at hkeyframes₁
    -- Registering in the cells that are left adds nothing.
    cases cells with
    | nil =>
      rw [Expanding.perform_forM_nil_ok] at hrest
      rw [← hrest]
      exact ⟨hdiscovering₁, hkeyframes₁⟩
    | cons cell' cells =>
      obtain ⟨hdiscovering', hkeyframes'⟩ := ih (List.cons_ne_nil _ _) hrest
      refine ⟨hdiscovering', ?_⟩
      rw [hkeyframes', hkeyframes₁, KeyframeStore.registerAll_registerAll]

/-- The keyframes definitions among the tokens of a tree for cells alone are for cells alone. -/
theorem ofCells_of_mem_definitions (hcells : ∀ t ∈ Token.within tokens, t.OfCells)
    {k : Keyframes} (hk : k ∈ Token.definitions tokens) :
    ∀ t ∈ Token.withinSteps k.steps, t.OfCells := by
  obtain ⟨token, htoken, hkeyframes⟩ := List.mem_filterMap.1 hk
  cases token with
  | keyframes name steps =>
    rw [Token.keyframes?, Option.some.injEq] at hkeyframes
    rw [← hkeyframes]
    exact (Token.forall_within.1 hcells _ htoken).2
  | _ => exact absurd hkeyframes.symm (Option.some_ne_none k)

/-- Two second passes from level states, of which one has registered the keyframes already, end
with the same declarations and the same keyframes section. -/
theorem Level.sections_eq (hcells : ∀ t ∈ Token.within tokens, t.OfCells)
    (hflat : ∀ token ∈ tokens, ∀ t ∈ token.inside, t.keyframes? = none) {cells : List Cell}
    (hne : cells ≠ []) {s t s₂ t₂ s₃ t₃ : Expansion} {text text' : String} (h : Level s t)
    (hs : s.keyframes = {})
    (ht : t.keyframes = KeyframeStore.registerAll {} (Token.definitions tokens))
    (hs₂ : (cells.forM (expandCell kit false tokens)).perform s = (.ok (), s₂))
    (ht₂ : (cells.forM (expandCell kit false tokens)).perform t = (.ok (), t₂))
    (hs₃ : (keyframesSection kit).perform s₂ = (.ok text, s₃))
    (ht₃ : (keyframesSection kit).perform t₂ = (.ok text', t₃)) :
    s₂.rules.toList = t₂.rules.toList ∧ text = text' := by
  have hpass : InStep Level (cells.forM (expandCell kit false tokens)) s
      (cells.forM (expandCell kit false tokens)) t := h.inStep_cells hcells cells
  obtain ⟨-, hlevel⟩ := hpass
  rw [hs₂, ht₂] at hlevel
  -- Whether they were there before or not, the second pass registers all keyframes.
  obtain ⟨hsdiscovering, hskeyframes⟩ := keyframes_of_cells hcells hflat hne hs₂
  obtain ⟨htdiscovering, htkeyframes⟩ := keyframes_of_cells hcells hflat hne ht₂
  rw [hs] at hskeyframes
  rw [ht, KeyframeStore.registerAll_registerAll] at htkeyframes
  have hsteps : ∀ k ∈ t₂.keyframes.definitions, ∀ t ∈ Token.withinSteps k.steps, t.OfCells := by
    intro k hk
    rw [htkeyframes] at hk
    obtain hnil | hmem := KeyframeStore.mem_definitions_registerAll hk
    · exact absurd hnil List.not_mem_nil
    · exact ofCells_of_mem_definitions hcells hmem
  have hsection : InStep _ (keyframesSection kit) s₂ (keyframesSection kit) t₂ :=
    Level.inStep_keyframesSection ⟨hsdiscovering, htdiscovering⟩ hlevel
      (hskeyframes.trans htkeyframes.symm) hsteps
  have htext := hsection.1
  rw [hs₃, ht₃, Except.ok.injEq] at htext
  exact ⟨hlevel.rules, htext⟩

/-! ### The directive in front -/

/-- The state after a grid directive without sizing, if it is the first one. -/
def Expansion.withGrid (s : Expansion) (grid : GridSize) : Expansion :=
  { s with grid := some grid, gridDefined := true }

theorem Expansion.setCellGrid_empty {s : Expansion} (h : s.gridDefined = false)
    (grid : GridSize) : s.setCellGrid grid "" = s.withGrid grid := by
  rw [setCellGrid, if_neg (by rw [h]; exact Bool.false_ne_true), push, RuleStore.push_empty]
  rfl

/-- Changes never take back that a grid directive was composed. -/
theorem kept_gridDefined (cell : Cell) (initial : Bool) :
    Kept cell initial (fun _ => True) fun s =>
      s.discovering = initial ∧ s.gridDefined = true :=
  Kept.of_apply (fun _ hs => hs) fun hs _ => Expansion.gridDefined_apply hs _

/-- A grid directive of a cell does nothing once there was one. -/
theorem perform_expandCell_gridText {text : String} {s : Expansion} (h : s.gridDefined = true) :
    (expandCell kit false (.rule (.ofText "@grid" text) :: tokens) cell).perform s =
      (expandCell kit false tokens cell).perform s := by
  have hunknown : ¬ (false = true ∧ (s.enter false cell).grid.isSome) :=
    fun hknown => absurd hknown.1 Bool.false_ne_true
  have hdefined : (s.enter false cell).gridDefined = true := h
  rw [Expanding.perform_expandCell, Expanding.perform_expandTokens_cons kit cell hunknown,
    Expanding.perform_bind, Expanding.perform_expandToken_gridText, Expansion.setCellGrid,
    if_pos hdefined]
  rfl

/-- In a second pass a grid directive in front does nothing if the first pass composed one. -/
theorem perform_cells_gridText {text : String} (cells : List Cell) {s : Expansion}
    (h : s.gridDefined = true) :
    (cells.forM (expandCell kit false (.rule (.ofText "@grid" text) :: tokens))).perform s =
      (cells.forM (expandCell kit false tokens)).perform s := by
  induction cells generalizing s with
  | nil => rw [Expanding.perform_forM_nil, Expanding.perform_forM_nil]
  | cons cell cells ih =>
    have hkept : ((expandTokens kit cell false tokens).perform
        (s.enter false cell)).2.discovering = false ∧
        ((expandTokens kit cell false tokens).perform (s.enter false cell)).2.gridDefined = true :=
      (kept_gridDefined cell false).expandTokens (fun _ _ => trivial) ⟨rfl, h⟩
    rw [Expanding.perform_forM_cons, Expanding.perform_forM_cons, Expanding.perform_bind,
      Expanding.perform_bind, perform_expandCell_gridText h]
    -- This cell's visit is the same, and leaves a state that knows of the directive.
    rcases hcell : (expandCell kit false tokens cell).perform s with ⟨outcome, s₁⟩
    rw [← Expanding.perform_expandCell, hcell] at hkept
    cases outcome with
    | ok a => exact ih hkept.2
    | error e => rfl

/-- The first pass with a grid directive in front knows its grid and has composed nothing. -/
theorem perform_first_gridText (hcells : ∀ t ∈ Token.within tokens, t.OfCells) {text : String}
    {s s' : Expansion} (hgrid : s.grid = none) (hdefined : s.gridDefined = false)
    (hhost : s.hostGrid = false) (hslash : '/' ∉ text.toList)
    (h : (expandCell kit true (.rule (.ofText "@grid" text) :: tokens) cell).perform s =
      (.ok (), s')) :
    ∃ c, s' = ((s.enter true cell).withGrid (GridSize.ofText text)).withContext c := by
  have hunknown : ¬ (true = true ∧ (s.enter true cell).grid.isSome) := by
    rintro ⟨-, hsome⟩
    change s.grid.isSome = true at hsome
    rw [hgrid] at hsome
    exact absurd hsome Bool.false_ne_true
  have hundefined : (s.enter true cell).gridDefined = false := hdefined
  have hhost' : ((s.enter true cell).withGrid (GridSize.ofText text)).hostGrid = false := hhost
  rw [Expanding.perform_expandCell, Expanding.perform_expandTokens_cons kit cell hunknown,
    Expanding.perform_bind, Expanding.perform_expandToken_gridText,
    Directive.readGrid_of_no_slash true hslash, Expansion.setCellGrid_empty hundefined] at h
  change (expandTokens kit cell true tokens).perform ((s.enter true cell).withGrid _) = _ at h
  -- The rest of the walk is a search that finds nothing.
  rw [perform_expandTokens_of_grid tokens hhost' rfl] at h
  obtain ⟨c, found, rfl, hnone⟩ := exists_adopt_of_seekHostGrid h
  refine ⟨c, ?_⟩
  rw [hnone fun t ht declaration hrule => ?_]
  · rfl
  · have hrules := hcells t ht
    rw [hrule] at hrules
    exact hrules

/-- Between the passes, a run whose first pass only knew a grid is level with one whose first pass
composed the tree. What the latter did is forgotten, up to the keyframes on top of the tree. -/
theorem Level.of_firstPass {seed : UInt64} (hcells : ∀ t ∈ Token.within tokens, t.OfCells)
    (hflat : ∀ token ∈ tokens, ∀ t ∈ token.inside, t.keyframes? = none) (grid : GridSize)
    (c : Context) {t₁ : Expansion}
    (h : (expandCell kit true tokens Cell.discovery).perform (.ofSeed seed) = (.ok (), t₁)) :
    t₁.grid = none ∧
      Level (((((Expansion.ofSeed seed).enter true Cell.discovery).withGrid grid).withContext
        c).restart seed) (t₁.restart seed) ∧
      (t₁.restart seed).keyframes =
        KeyframeStore.registerAll {} (Token.definitions tokens) := by
  have ht₁ := cellsOnly_of_expandCell hcells (Expansion.cellsOnly_ofSeed seed) h
  have hentered : ((Expansion.ofSeed seed).enter true Cell.discovery).discovering = true := rfl
  have hunknown : ¬ (true = true ∧
      ((Expansion.ofSeed seed).enter true Cell.discovery).grid.isSome) :=
    fun hknown => absurd hknown.2 Bool.false_ne_true
  rw [Expanding.perform_expandCell] at h
  obtain ⟨-, hkeyframes⟩ := keyframes_of_expandTokens hcells hflat hentered hunknown h
  refine ⟨ht₁.grid, ⟨⟨rfl, ht₁.composed⟩,
    ⟨RuleStore.wellFormed_empty.dropCells, ht₁.wellFormed.dropCells⟩, ?_, rfl, rfl⟩, hkeyframes⟩
  rw [ht₁.toList_restart]
  change ({} : RuleStore).dropCells.toList = []
  rw [RuleStore.toList_dropCells]
  rfl

end Walk

/-- Writing a grid without sizing in front of a tree, or passing it as the default, makes the same
styles for the same grid. The tree sets no other grid, has no block for the host or the container,
and has keyframes on top only; its functions may share and change the context. -/
theorem generate_gridText {kit : Toolkit} {seed : UInt64} {tokens : List Token}
    {text : String} {default : GridSize} {a b : Compiled}
    (hcells : ∀ t ∈ Token.within tokens, t.OfCells)
    (hflat : ∀ token ∈ tokens, ∀ t ∈ token.inside, t.keyframes? = none)
    (hslash : '/' ∉ text.toList)
    (ha : generate kit seed (.rule (.ofText "@grid" text) :: tokens) default = .ok a)
    (hb : generate kit seed tokens (GridSize.ofText text) = .ok b) :
    a.styles = b.styles ∧ a.grid = b.grid := by
  obtain ⟨s₁, s₂, s₃, sections, hsfirst, hssecond, hssection, rfl⟩ := generate_eq_ok ha
  obtain ⟨t₁, t₂, t₃, sections', htfirst, htsecond, htsection, rfl⟩ := generate_eq_ok hb
  obtain ⟨c, hs₁⟩ := perform_first_gridText hcells rfl rfl rfl hslash hsfirst
  obtain ⟨htgrid, hlevel, htkeyframes⟩ :=
    Level.of_firstPass hcells hflat (GridSize.ofText text) c htfirst
  rw [← hs₁] at hlevel
  -- Both runs visit the cells of the grid that is written.
  have hsgrid : s₁.grid.getD default = GridSize.ofText text := by
    rw [hs₁]
    rfl
  rw [hsgrid] at hssecond ⊢
  rw [htgrid, Option.getD_none] at htsecond ⊢
  have hdefined : (s₁.restart seed).gridDefined = true := by
    rw [hs₁]
    rfl
  rw [perform_cells_gridText _ hdefined] at hssecond
  have hskeyframes : (s₁.restart seed).keyframes = {} := by
    rw [hs₁]
    rfl
  obtain ⟨hrules, hsections⟩ := hlevel.sections_eq hcells hflat
    (GridSize.cells_ofText_ne_nil text) hskeyframes htkeyframes hssecond htsecond hssection
    htsection
  rw [hrules, hsections]
  exact ⟨rfl, rfl⟩

/-- A color drawn for every cell, and an animation. -/
def drawnColors : List Token :=
  [.rule ⟨"color", [[.call "@pick" [.ofText "red", .ofText "blue"] 0]], []⟩,
    .keyframes "spin" [⟨"to", [.ofText "rotate" "1turn"]⟩],
    .rule (.ofText "animation-name" "spin")]

/-- Two cells draw the same colors, whichever way their grid is set. -/
theorem generate_gridText_drawn :
    ∃ a b, generate .builtin 7 (.rule (.ofText "@grid" "1x2") :: drawnColors) {} = .ok a ∧
      generate .builtin 7 drawnColors (GridSize.ofText "1x2") = .ok b ∧
      a.styles = b.styles ∧ a.grid = b.grid := by
  have hcells : ∀ t ∈ Token.within drawnColors, t.OfCells := by
    have hwithin : Token.within drawnColors =
        [.rule ⟨"color", [[.call "@pick" [.ofText "red", .ofText "blue"] 0]], []⟩,
          .keyframes "spin" [⟨"to", [.ofText "rotate" "1turn"]⟩],
          .rule (.ofText "rotate" "1turn"), .rule (.ofText "animation-name" "spin")] := rfl
    rw [hwithin]
    decide
  have hflat : ∀ token ∈ drawnColors, ∀ t ∈ token.inside, t.keyframes? = none := by
    simp [drawnColors, Token.inside, Token.insideRule, Token.within, Token.withinSteps,
      Token.withinStep, Token.withinRules, Token.keyframes?, RuleOf.ofText]
  obtain ⟨a, ha⟩ := exists_generate_eq (show (generate .builtin 7
    (.rule (.ofText "@grid" "1x2") :: drawnColors) {}).isOk = true by decide +kernel)
  obtain ⟨b, hb⟩ := exists_generate_eq (show (generate .builtin 7 drawnColors
    (GridSize.ofText "1x2")).isOk = true by decide +kernel)
  exact ⟨a, b, ha, hb, generate_gridText hcells hflat (by decide) ha hb⟩

end GridStyle
