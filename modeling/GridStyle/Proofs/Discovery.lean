import GridStyle.Proofs.Expansion.Follow
import GridStyle.Proofs.Expansion.Itinerary
import GridStyle.Proofs.Expansion.Search
import GridStyle.Proofs.Grid

/-!
# What a Discovery Can Break

The first pass composes a tree for a cell that need not exist in its grid. So a tree that sets no
grid can be composed for every cell of the default grid (`expandDirectly`), and generating its
stylesheet fails nevertheless. There are three reasons (`directOnly_examples`).

* The first pass itself fails.
* It composes special blocks, which use the shared context, and so all that is composed later sees
  another context.
* It registers keyframes that no cell has, or registers them in another order.

Where none of them applies, generating succeeds, and the keyframes section is that of the tree
composed directly (`generate_of_expandDirectly`).
-/

namespace GridStyle

/-- Compose a tree for every cell of a grid and then the registered keyframes for every cell, with
no discovery before. -/
def expandDirectly (kit : Toolkit) (tokens : List Token) (grid : GridSize) : Expanding String := do
  grid.cells.forM (expandCell kit false tokens)
  keyframesSection kit

/-- The state in which the keyframes are composed then. -/
def directPass (kit : Toolkit) (seed : UInt64) (tokens : List Token) (grid : GridSize) :
    Expansion :=
  ((grid.cells.forM (expandCell kit false tokens)).perform (.ofSeed seed)).2

/-! ### Trees that only the discovery breaks -/

/-- The tree sets no grid, and composing it directly for every cell of the default grid succeeds,
but generating its stylesheet fails. -/
structure DirectOnly (seed : UInt64) (tokens : List Token) (text : String) : Prop where
  noGrid : ∀ t ∈ Token.within tokens, t.SetsNoGrid
  direct : ((expandDirectly .builtin tokens (.ofText text)).perform (.ofSeed seed)).1.isOk = true
  generate : (generate .builtin seed tokens (.ofText text)).isOk = false

namespace DirectOnly

/-- The call `@size`. -/
def size : ValueNode := .call "@size" [] 0

/-- The call `@pick(1, 99999)`. -/
def draw : ValueNode := .call "@pick" [.ofText "1", .ofText "99999"] 0

/-- A call of `@m` with a number of repetitions. More than `65536` are refused. -/
def repeated (times : ValueNode) : ValueNode := .call "@m" [⟨false, [times]⟩, .ofText "1"] 0

/-- Keyframes with one declaration. -/
def frames (name property : String) (value : ValueNode) : Token :=
  .keyframes name [⟨"to", [⟨property, [[value]], []⟩]⟩]

/-- A condition that holds in the only cell of a grid of one. -/
def onlyCell (styles : List Token) : Token :=
  .condition "@at" [⟨false, [size]⟩, .ofText "1"] styles

/-- The first pass itself fails, in a block that no cell of the grid comes to. -/
def failing : List Token :=
  [onlyCell [.rule ⟨"width", [[repeated (.text "99999")]], []⟩]]

/-- The first pass composes the block for the host, so the rule of the cell draws first. -/
def drawing : List Token :=
  [.pseudo 0 ":host" [⟨"--a", [[draw]], []⟩], .rule ⟨"--b", [[repeated draw]], []⟩]

/-- The first pass registers keyframes that no cell of the grid has. -/
def registering : List Token := [onlyCell [frames "spin" "width" (repeated (.text "99999"))]]

/-- The first pass composes a block for the host, but the condition in it does not hold there. So
the keyframes that the block includes, which draw, are never registered. -/
def including : List Token :=
  [frames "a" "--b" (repeated draw),
    .pseudo 0 ":host" [⟨"@use", [],
      [.condition "@at" [⟨false, [repeated size]⟩] [frames "b" "--a" draw]]⟩]]

end DirectOnly

/-- Four trees that can be composed directly, but whose stylesheets cannot be generated. Each of
them lacks one of the properties that `generate_of_expandDirectly` asks for. -/
theorem directOnly_examples :
    DirectOnly 1 DirectOnly.failing "3" ∧ DirectOnly 3 DirectOnly.drawing "1" ∧
      DirectOnly 1 DirectOnly.registering "3" ∧ DirectOnly 2 DirectOnly.including "1x2" :=
  ⟨⟨by decide +kernel, by decide +kernel, by decide +kernel⟩,
    ⟨by decide +kernel, by decide +kernel, by decide +kernel⟩,
    ⟨by decide +kernel, by decide +kernel, by decide +kernel⟩,
    ⟨by decide +kernel, by decide +kernel, by decide +kernel⟩⟩

/-! ### Trees that it does not break -/

section Passes

variable {kit : Toolkit} {tokens : List Token} {first : Expansion}

open Expanding

/-- A walk over a tree that sets no grid finds none. -/
theorem kept_noGrid (cell : Cell) (initial : Bool) :
    Kept cell initial Token.SetsNoGrid fun s => s.discovering = initial ∧ s.grid = none := by
  refine ⟨fun hs => hs.1, fun _ hs => hs, fun {s c} hs hc => ?_⟩
  cases c with
  | hostGrid size | cellGrid size sizing | soughtGrid size =>
    obtain ⟨declaration, hsets, hgrid, -⟩ := hc
    exact absurd hgrid (hsets declaration rfl)
  | note kind => cases kind <;> exact hs
  | _ => exact hs

theorem grid_firstPass (seed : UInt64) (hgrid : ∀ t ∈ Token.within tokens, t.SetsNoGrid) :
    (firstPass kit seed tokens).grid = none := by
  have hkept : _ ∧ ((expandTokens kit Cell.discovery true tokens).perform
      ((Expansion.ofSeed seed).enter true Cell.discovery)).2.grid = none :=
    (kept_noGrid Cell.discovery true).expandTokens hgrid ⟨rfl, rfl⟩
  exact hkept.2

/-- The second pass begins as a fresh run does, but for what the discovery left. -/
theorem afterDiscovery_restart (tree : List Token) (first : Expansion) (seed : UInt64) :
    AfterDiscovery tree first (.ofSeed seed) (first.restart seed) := by
  refine ⟨fun id => ?_, List.nodup_nil, fun k hk => absurd hk List.not_mem_nil, rfl, rfl, rfl⟩
  change id ∈ first.composed ↔ id ∈ first.composed ∨ id ∈ []
  simp

/-- The visit of a cell. It does not matter whether the runs before it looked for a grid. -/
theorem follows_expandCell (hinert : InertBlocks kit (Token.within tokens) first) (cell : Cell)
    {s t : Expansion} (h : AfterDiscovery (Token.within tokens) first s t) :
    Follows (WalkAfterDiscovery (Token.within tokens) first) (expandCell kit false tokens cell) s
      (expandCell kit false tokens cell) t := by
  have hhistory : t.history.push cell = s.history.push cell := by rw [h.history]
  have henter : WalkAfterDiscovery (Token.within tokens) first (s.enter false cell)
      (t.enter false cell) :=
    ⟨⟨h.composed, h.nodup, h.registered, h.keyframes, hhistory, h.context⟩, rfl, rfl⟩
  exact hinert.follows_expandTokens tokens (fun _ ht => ht) henter

theorem follows_cells (hinert : InertBlocks kit (Token.within tokens) first) {cells : List Cell}
    (hne : cells ≠ []) {s t : Expansion} (h : AfterDiscovery (Token.within tokens) first s t) :
    Follows (WalkAfterDiscovery (Token.within tokens) first)
      (cells.forM (expandCell kit false tokens)) s
      (cells.forM (expandCell kit false tokens)) t := by
  cases cells with
  | nil => exact absurd rfl hne
  | cons cell cells =>
    -- From the first cell on neither run looks for a grid.
    refine Follows.bind (follows_expandCell hinert cell h) fun _ s' t' h' => ?_
    exact Follows.forM (fun cell' _ s t h => follows_expandCell hinert cell' h.toAfterDiscovery) h'

/-- With the same keyframes registered the keyframes sections are the same. -/
theorem follows_keyframesSection (hinert : InertBlocks kit (Token.within tokens) first)
    {s t : Expansion} (h : WalkAfterDiscovery (Token.within tokens) first s t)
    (hkeyframes : t.keyframes = s.keyframes) :
    Follows (WalkAfterDiscovery (Token.within tokens) first) (keyframesSection kit) s
      (keyframesSection kit) t := by
  unfold keyframesSection
  refine Follows.get_bind ?_
  rw [hkeyframes, h.history]
  refine Follows.bind (Follows.mapM (fun visit _ s₁ t₁ h₁ => ?_) h)
    fun texts s' t' h' => Follows.pure h' _
  refine Follows.mapM (fun k hk s₂ t₂ h₂ => ?_) h₁
  -- The rules of a registered definition are rules of the tree.
  have hrules : ∀ t ∈ Token.withinSteps k.steps, t ∈ Token.within tokens :=
    fun _ ht => Token.closed_within tokens _ (h.registered k hk) ht
  unfold cellKeyframes
  exact Follows.bind (hinert.follows_keyframesBody hrules h₂)
    fun body s' t' h' => Follows.pure h' _

end Passes

/-- If composing a tree directly for every cell of the default grid succeeds, so does generating
its stylesheet. The first pass has to succeed too, the blocks that it composes have inert rules,
and the keyframes that it registers are the first ones that composing the cells registers. The tree
sets no grid, and the default is any grid that is written as a text. -/
theorem generate_of_expandDirectly {kit : Toolkit} {seed : UInt64} {tokens : List Token}
    {text keyframes : String} (hgrid : ∀ t ∈ Token.within tokens, t.SetsNoGrid)
    (hdirect : ((expandDirectly kit tokens (.ofText text)).perform (.ofSeed seed)).1 =
      .ok keyframes)
    (hfirst : ((expandCell kit true tokens Cell.discovery).perform (.ofSeed seed)).1 = .ok ())
    (hinert : InertBlocks kit (Token.within tokens) (firstPass kit seed tokens))
    (hkeyframes : (firstPass kit seed tokens).keyframes.definitions <+:
      (directPass kit seed tokens (.ofText text)).keyframes.definitions) :
    ∃ compiled, generate kit seed tokens (.ofText text) = .ok compiled ∧
      compiled.grid = .ofText text ∧ compiled.styles.keyframes = keyframes := by
  -- Both passes of the direct run succeed.
  obtain ⟨s₃, hrun⟩ := Expanding.exists_perform_eq hdirect
  rw [expandDirectly, Expanding.perform_bind_ok] at hrun
  obtain ⟨_, s₂, hcells, hsection⟩ := hrun
  have hpass : directPass kit seed tokens (.ofText text) = s₂ := by rw [directPass, hcells]
  -- The second pass follows the direct one, and registers the same keyframes.
  have hstart := afterDiscovery_restart (Token.within tokens) (firstPass kit seed tokens) seed
  obtain ⟨t₂, hsecond, hafter⟩ :=
    follows_cells hinert (GridSize.cells_ofText_ne_nil text) hstart _ _ hcells
  have hregistered : t₂.keyframes = s₂.keyframes := by
    rw [hpass] at hkeyframes
    rw [hafter.keyframes, KeyframeStore.registerAll_of_isPrefix hafter.nodup hkeyframes]
  obtain ⟨t₃, hrendered, -⟩ :=
    follows_keyframesSection hinert hafter hregistered _ _ hsection
  have hdefault : (firstPass kit seed tokens).grid.getD (.ofText text) = .ofText text := by
    rw [grid_firstPass seed hgrid, Option.getD_none]
  have hsecond' : (((firstPass kit seed tokens).grid.getD (.ofText text)).cells.forM
      (expandCell kit false tokens)).perform ((firstPass kit seed tokens).restart seed) =
      (.ok (), t₂) := by
    rw [hdefault]
    exact hsecond
  obtain ⟨s₁, hvisit⟩ := Expanding.exists_perform_eq hfirst
  have hone : firstPass kit seed tokens = s₁ := by rw [firstPass, hvisit]
  rw [hone] at hsecond' hdefault
  exact ⟨_, generate_of_passes hvisit hsecond' hrendered, hdefault, rfl⟩

/-- A block for the host, a rule that draws, and keyframes of the cells with even numbers. -/
def spinningCells : List Token :=
  [.pseudo 0 ":host" [.ofText "color" "red"], .rule ⟨"--b", [[DirectOnly.draw]], []⟩,
    .condition "@even" [] [DirectOnly.frames "spin" "width" (.text "1px")]]

/-- The discovery composes the block for the host and registers no keyframes. -/
theorem generate_of_expandDirectly_spinning :
    ∃ keyframes compiled,
      ((expandDirectly .builtin spinningCells (.ofText "1x2")).perform (.ofSeed 1)).1 =
        .ok keyframes ∧
      generate .builtin 1 spinningCells (.ofText "1x2") = .ok compiled ∧
      compiled.grid = .ofText "1x2" ∧ compiled.styles.keyframes = keyframes := by
  obtain ⟨_, hfirst⟩ := exists_of_isOk
    (show ((expandCell .builtin true spinningCells Cell.discovery).perform
      (.ofSeed 1)).1.isOk = true by decide +kernel)
  obtain ⟨keyframes, hdirect⟩ := exists_of_isOk
    (show ((expandDirectly .builtin spinningCells (.ofText "1x2")).perform
      (.ofSeed 1)).1.isOk = true by decide +kernel)
  -- The only special block has one rule, whose value is a text.
  have hinert : InertBlocks .builtin (Token.within spinningCells)
      (firstPass .builtin 1 spinningCells) := by
    intro id selector styles hmem _ r hr
    have hstyles : styles = [.ofText "color" "red"] := by
      simp only [spinningCells, DirectOnly.frames, Token.within, Token.inside, Token.insideRule,
        Token.withinRules, Token.withinSteps, Token.withinStep, RuleOf.ofText] at hmem
      simp_all [RuleOf.ofText]
    rw [hstyles, List.mem_singleton] at hr
    subst hr
    refine ⟨by simp [RuleOf.ofText], fun cell c => ?_⟩
    rw [RuleOf.ofText, Expanding.perform_groupTexts_text]
  have hkeyframes : (firstPass .builtin 1 spinningCells).keyframes.definitions <+:
      (directPass .builtin 1 spinningCells (.ofText "1x2")).keyframes.definitions := by
    have hnone : (firstPass .builtin 1 spinningCells).keyframes.definitions = [] :=
      List.isEmpty_iff.1 (by decide +kernel)
    rw [hnone]
    exact List.nil_prefix
  obtain ⟨compiled, hgenerate, hgrid, hsection⟩ :=
    generate_of_expandDirectly (by decide +kernel) hdirect hfirst hinert hkeyframes
  exact ⟨keyframes, compiled, hdirect, hgenerate, hgrid, hsection⟩

end GridStyle
