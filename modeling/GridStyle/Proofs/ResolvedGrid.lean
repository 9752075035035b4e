import GridStyle.Proofs.Conditions
import GridStyle.Proofs.Expansion.Itinerary
import GridStyle.Proofs.Expansion.Lockstep
import GridStyle.Proofs.Grid
import GridStyle.Proofs.RuleStore

/-!
# The Grid That Special Blocks See

A block for the host or the container is composed for the cell at which a walk first comes to it,
and its functions see the grid of that cell. In the second pass that is the grid of the stylesheet.
In the first pass it is a grid of one, whatever the grid of the stylesheet turns out to be
(`host_block_sees_grid_of_one`).

So the blocks that the first pass has not composed see the grid of the stylesheet, and these are
all of them if a grid directive of the cells stands in front of them (`special_blocks_see_grid`).
-/

namespace GridStyle

/-! ### The cells of visits -/

section Cells

variable {kit : Toolkit} {cell : Cell}

mutual

/-- A walk comes to blocks for its own cell. -/
theorem cell_visits : ∀ {initial : Bool} {tokens : List Token} {s : Expansion},
    ∀ v ∈ visits kit cell initial tokens s, v.cell = cell
  | initial, [], s => fun v hv => absurd hv List.not_mem_nil
  | initial, token :: rest, s => by
    intro v hv
    rw [visits] at hv
    split at hv
    · exact absurd hv List.not_mem_nil
    · obtain hv | hv := List.mem_append.1 hv
      · exact cell_tokenVisits v hv
      · exact cell_visits v hv

theorem cell_tokenVisits : ∀ {initial : Bool} {token : Token} {s : Expansion},
    ∀ v ∈ tokenVisits kit cell initial token s, v.cell = cell
  | initial, .rule declaration, s => fun v hv => cell_ruleVisits v hv
  | initial, .pseudo id selector styles, s => by
    intro v hv
    rw [tokenVisits, List.mem_singleton] at hv
    rw [hv]
  | initial, .condition name arguments styles, s => by
    intro v hv
    rw [tokenVisits] at hv
    split at hv
    · exact cell_visits v hv
    · exact absurd hv List.not_mem_nil
  | initial, .keyframes name steps, s => fun v hv => absurd hv List.not_mem_nil

theorem cell_ruleVisits : ∀ {declaration : RuleOf Token} {s : Expansion},
    ∀ v ∈ ruleVisits kit cell declaration s, v.cell = cell
  | ⟨property, value, styles⟩, s => by
    intro v hv
    rw [ruleVisits] at hv
    split at hv
    · split at hv
      · exact cell_visits v hv
      · exact absurd hv List.not_mem_nil
    · exact absurd hv List.not_mem_nil

end

/-- The visits of some cells are visits for these cells. -/
theorem cell_cellVisits {tokens : List Token} : ∀ {cells : List Cell} {s : Expansion},
    ∀ v ∈ cellVisits kit tokens cells s, v.cell ∈ cells
  | [], s => fun v hv => absurd hv List.not_mem_nil
  | cell :: cells, s => by
    intro v hv
    obtain hv | hv := List.mem_append.1 hv
    · rw [cell_visits v hv]
      exact List.mem_cons_self
    · exact List.mem_cons_of_mem cell (cell_cellVisits v hv)

end Cells

/-! ### Visited blocks are composed -/

/-- Blocks that are composed stay composed. -/
theorem kept_composed (cell : Cell) (initial : Bool) (ids : List Nat) :
    Kept cell initial (fun _ => True) fun s => s.discovering = initial ∧ ids ⊆ s.composed := by
  refine ⟨fun hs => hs.1, fun c hs => hs, ?_⟩
  rintro s c ⟨hdiscovering, hs⟩ -
  cases c with
  | begin id => exact ⟨hdiscovering, List.subset_cons_of_subset id hs⟩
  | note kind => cases kind <;> exact ⟨hdiscovering, hs⟩
  | cellGrid size sizing =>
    rw [Expansion.apply, Expansion.setCellGrid]
    split <;> exact ⟨hdiscovering, hs⟩
  | _ => exact ⟨hdiscovering, hs⟩

section Composed

variable {kit : Toolkit} {cell : Cell} {initial : Bool}

open Expanding

theorem mem_composed_of_expandTokens {tokens : List Token} {s s' : Expansion} {id : Nat}
    (hs : s.discovering = initial) (hid : id ∈ s.composed)
    (h : (expandTokens kit cell initial tokens).perform s = (.ok (), s')) : id ∈ s'.composed := by
  have hkept : _ ∧ [id] ⊆ ((expandTokens kit cell initial tokens).perform s).2.composed :=
    (kept_composed cell initial [id]).expandTokens (fun _ _ => trivial)
      ⟨hs, List.cons_subset.2 ⟨hid, List.nil_subset _⟩⟩
  rw [h] at hkept
  exact hkept.2 List.mem_cons_self

theorem discovering_of_expandToken {token : Token} {s s' : Expansion}
    (hs : s.discovering = initial)
    (h : (expandToken kit cell initial token).perform s = (.ok (), s')) :
    s'.discovering = initial := by
  have hkept : ((expandToken kit cell initial token).perform s).2.discovering = initial ∧ _ :=
    (kept_composed cell initial []).expandToken trivial (fun _ _ => trivial)
      ⟨hs, List.nil_subset _⟩
  rw [h] at hkept
  exact hkept.1

/-- A special block is composed after the walk of it. -/
theorem mem_composed_of_pseudo {id : Nat} {selector : String} {styles : List Rule}
    {s s' : Expansion} (hs : s.discovering = initial)
    (hspecial : Selector.isSpecial (Selector.normalize selector) = true)
    (h : (expandToken kit cell initial (.pseudo id selector styles)).perform s = (.ok (), s')) :
    id ∈ s'.composed := by
  rw [perform_expandToken_pseudo] at h
  split at h
  · next hid =>
    rw [Prod.mk.injEq] at h
    exact h.2 ▸ hid
  · -- The block counts as composed before its rules are composed, and so also after.
    simp only [hspecial, beginSpecial, perform_modify_bind] at h
    have hkept : Coupling kit cell initial (fun _ => True)
        fun s t => s = t ∧ s.discovering = initial ∧ [id] ⊆ s.composed :=
      (kept_composed cell initial [id]).coupling
    have hparts : InStep (fun s t => s = t ∧ s.discovering = initial ∧ [id] ⊆ s.composed)
        ((selectorParts (Selector.normalize selector)).forM fun part =>
          expandRules kit cell (partSelector cell true part) styles) (s.apply (.begin id))
        ((selectorParts (Selector.normalize selector)).forM fun part =>
          expandRules kit cell (partSelector cell true part) styles) (s.apply (.begin id)) := by
      refine InStep.forM (fun part hpart s t hR => ?_)
        ⟨rfl, hs, List.cons_subset.2 ⟨List.mem_cons_self, List.nil_subset _⟩⟩
      refine hkept.inStep_expandRules styles (fun _ _ => trivial) _ (fun text => .inr ?_) hR
      exact ⟨id, selector, styles, trivial, part, hpart, by rw [hspecial]⟩
    have hid := hparts.2.2.2
    rw [Expansion.apply, h] at hid
    exact hid List.mem_cons_self

mutual

theorem composed_visits : ∀ {tokens : List Token} {s s' : Expansion},
    s.discovering = initial → (expandTokens kit cell initial tokens).perform s = (.ok (), s') →
    ∀ v ∈ visits kit cell initial tokens s, v.isSpecial = true → v.id ∈ s'.composed
  | [], s, s', _, _ => fun v hv => absurd hv List.not_mem_nil
  | token :: rest, s, s', hs, h => by
    intro v hv hspecial
    rw [visits] at hv
    split at hv
    · exact absurd hv List.not_mem_nil
    · next hknown =>
      rw [perform_expandTokens_cons kit cell hknown, perform_bind_ok] at h
      obtain ⟨_, s₁, htoken, hrest⟩ := h
      have hs₁ := discovering_of_expandToken hs htoken
      rw [htoken] at hv
      -- What the first token composes is not taken back by the rest.
      obtain hv | hv := List.mem_append.1 hv
      · exact mem_composed_of_expandTokens hs₁ (composed_tokenVisits hs htoken v hv hspecial) hrest
      · exact composed_visits hs₁ hrest v hv hspecial

theorem composed_tokenVisits : ∀ {token : Token} {s s' : Expansion},
    s.discovering = initial → (expandToken kit cell initial token).perform s = (.ok (), s') →
    ∀ v ∈ tokenVisits kit cell initial token s, v.isSpecial = true → v.id ∈ s'.composed
  | .rule declaration, s, s', hs, h => by
    rw [expandToken, perform_bind_ok] at h
    obtain ⟨text, s₁, hrule, hpush⟩ := h
    rw [perform_modify_ok] at hpush
    subst hpush
    intro v hv hspecial
    -- Declaring the text leaves the composed blocks alone.
    have hid : v.id ∈ s₁.composed := composed_ruleVisits hs hrule v hv hspecial
    exact hid
  | .pseudo id selector styles, s, s', hs, h => by
    intro v hv hspecial
    rw [tokenVisits, List.mem_singleton] at hv
    subst hv
    exact mem_composed_of_pseudo hs hspecial h
  | .condition name arguments styles, s, s', hs, h => by
    intro v hv hspecial
    rw [expandToken, perform_bind_ok] at h
    obtain ⟨b, s₁, hholds, hstyles⟩ := h
    rw [tokenVisits, hholds] at hv
    obtain ⟨c, -, rfl⟩ := perform_act_ok.1 hholds
    cases b with
    | false => exact absurd hv List.not_mem_nil
    | true =>
      rw [if_pos rfl] at hstyles
      exact composed_visits (s := s.withContext c) hs hstyles v hv hspecial
  | .keyframes name steps, s, s', _, _ => fun v hv => absurd hv List.not_mem_nil

theorem composed_ruleVisits : ∀ {declaration : RuleOf Token} {selector : Option String}
    {text : String} {s s' : Expansion}, s.discovering = initial →
    (composeRule kit cell selector declaration).perform s = (.ok text, s') →
    ∀ v ∈ ruleVisits kit cell declaration s, v.isSpecial = true → v.id ∈ s'.composed
  | ⟨property, value, styles⟩, selector, text, s, s', hs, h => by
    intro v hv hspecial
    rw [ruleVisits] at hv
    split at hv
    · next huse =>
      rw [composeRule_inclusion kit cell _ huse, perform_bind_ok] at h
      obtain ⟨texts, s₁, hact, hrest⟩ := h
      rw [perform_get_bind, perform_bind_ok] at hrest
      obtain ⟨_, s₂, hstyles, hdone⟩ := hrest
      rw [perform_pure_ok] at hdone
      rw [hact] at hv
      -- Composing the value changes the context only, so the pass goes on as it was.
      obtain ⟨c, -, rfl⟩ := perform_act_ok.1 hact
      have hs₁ : (s.withContext c).discovering = initial := hs
      rw [hs₁] at hstyles
      rw [← hdone.2]
      refine composed_visits hs₁ hstyles v ?_ hspecial
      rw [← hs₁]
      exact hv
    · exact absurd hv List.not_mem_nil

end

end Composed

/-! ### Grid directives in front -/

/-- The token is no block for the host or the container. -/
def Token.NotSpecial : Token → Prop
  | .pseudo _ selector _ => Selector.isSpecial (Selector.normalize selector) = false
  | .rule _ | .condition _ _ _ | .keyframes _ _ => True

/-- Where no token is a special block, none is composed, and a grid directive makes a grid known. -/
theorem kept_notSpecial (cell : Cell) (initial : Bool) :
    Kept cell initial Token.NotSpecial fun s =>
      s.discovering = initial ∧ s.composed = [] ∧ (s.gridDefined = true → s.grid.isSome) := by
  refine ⟨fun hs => hs.1, fun c hs => hs, fun {s c} hs hc => ?_⟩
  obtain ⟨hdiscovering, hcomposed, hdefined⟩ := hs
  cases c with
  | begin id =>
    -- Only special blocks begin, and there is none.
    obtain ⟨list, styles, ha, hspecial⟩ := hc
    have hnot : Selector.isSpecial (Selector.normalize list) = false := ha
    rw [hnot] at hspecial
    exact absurd hspecial Bool.false_ne_true
  | note kind => cases kind <;> exact ⟨hdiscovering, hcomposed, hdefined⟩
  | hostGrid size => exact ⟨hdiscovering, hcomposed, fun _ => rfl⟩
  | soughtGrid size => exact ⟨hdiscovering, hcomposed, fun _ => rfl⟩
  | cellGrid size sizing =>
    rw [Expansion.apply, Expansion.setCellGrid]
    split
    · exact ⟨hdiscovering, hcomposed, hdefined⟩
    · exact ⟨hdiscovering, hcomposed, fun _ => rfl⟩
  | _ => exact ⟨hdiscovering, hcomposed, hdefined⟩

section Generation

variable {kit : Toolkit} {cell : Cell} {seed : UInt64} {tokens : List Token} {default : GridSize}
  {compiled : Compiled}

open Expanding

/-- An initial walk composes no special block once a grid is known. -/
theorem composed_of_isSome {s s' : Expansion} (hgrid : s.grid.isSome)
    (h : (expandTokens kit cell true tokens).perform s = (.ok (), s')) :
    s'.composed = s.composed := by
  rw [perform_expandTokens_of_isSome tokens hgrid] at h
  obtain ⟨c, found, rfl, -⟩ := exists_adopt_of_seekHostGrid h
  cases found <;> rfl

/-- A grid directive of a cell makes a grid known if there was none. -/
theorem isSome_grid_of_expandToken {initial : Bool} {declaration : Rule} {s s' : Expansion}
    (hgrid : declaration.property = "@grid") (hdefined : s.gridDefined = false)
    (h : (expandToken kit cell initial (.rule declaration)).perform s = (.ok (), s')) :
    s'.grid.isSome ∧ s'.composed = s.composed := by
  have huse : declaration.property ≠ "@use" := by rw [hgrid]; decide
  have hhost : (some (Selector.ofCell cell "")).any Selector.isHost = false := by
    rw [Option.any_some, Selector.isHost_ofCell]
  rw [expandToken, perform_bind_ok] at h
  obtain ⟨text, s₁, hrule, hpush⟩ := h
  rw [perform_modify_ok] at hpush
  subst hpush
  obtain ⟨texts, c, -, -, rfl⟩ := (perform_composeRule_ok kit cell huse).1 hrule
  obtain ⟨size, sizing, hread⟩ : ∃ size sizing, Directive.readGrid true
      (propertyValue (PropertyKind.ofName declaration.property) cell texts) = (size, sizing) :=
    ⟨_, _, rfl⟩
  -- The directive meets a state `t` in which no directive has been composed yet.
  obtain ⟨t, ht⟩ : ∃ t, t = (s.withContext c).apply (.note .grid) := ⟨_, rfl⟩
  have hundefined : ¬ t.gridDefined = true := by
    rw [ht, Bool.not_eq_true]
    exact hdefined
  have hcomposed : t.composed = s.composed := by rw [ht]; rfl
  rw [gridChanges, if_pos hgrid, hread, hhost, hgrid, PropertyKind.ofName_grid, ← ht]
  change ((t.setCellGrid size sizing).push _ text).grid.isSome ∧
    ((t.setCellGrid size sizing).push _ text).composed = s.composed
  rw [Expansion.setCellGrid, if_neg hundefined]
  exact ⟨rfl, hcomposed⟩

/-- With a grid directive of the cells in front of all special blocks the first pass composes none
of them. -/
theorem composed_firstPass {front rest : List Token} {declaration : Rule}
    (hfront : ∀ t ∈ Token.within front, t.NotSpecial) (hgrid : declaration.property = "@grid")
    {s : Expansion} (h : (expandCell kit true (front ++ .rule declaration :: rest)
      Cell.discovery).perform (.ofSeed seed) = (.ok (), s)) : s.composed = [] := by
  rw [perform_expandCell, expandTokens_append, perform_bind_ok] at h
  obtain ⟨_, s₁, hstart, hrest⟩ := h
  have hkept : s₁.discovering = true ∧ s₁.composed = [] ∧
      (s₁.gridDefined = true → s₁.grid.isSome) := by
    have hbegin : ((Expansion.ofSeed seed).enter true Cell.discovery).gridDefined ≠ true :=
      Bool.false_ne_true
    have hwalk : _ ∧ ((expandTokens kit Cell.discovery true front).perform
        ((Expansion.ofSeed seed).enter true Cell.discovery)).2.composed = [] ∧ _ :=
      (kept_notSpecial Cell.discovery true).expandTokens hfront
        ⟨rfl, rfl, fun hdefined => absurd hdefined hbegin⟩
    rw [hstart] at hwalk
    exact hwalk
  -- A grid of the part in front ends the composing there.
  by_cases hknown : s₁.grid.isSome
  · rw [composed_of_isSome hknown hrest]
    exact hkept.2.1
  · -- The directive is the first one, and what comes after it is only searched.
    have hdefined : s₁.gridDefined = false := by
      rw [← Bool.not_eq_true]
      exact fun hdefined => hknown (hkept.2.2 hdefined)
    rw [perform_expandTokens_cons kit _ fun hboth => hknown hboth.2, perform_bind_ok] at hrest
    obtain ⟨_, s₂, htoken, hrest⟩ := hrest
    obtain ⟨hsome, hcomposed⟩ := isSome_grid_of_expandToken hgrid hdefined htoken
    rw [composed_of_isSome hsome hrest, hcomposed]
    exact hkept.2.1

/-- The special blocks that the first pass has not composed are visited for the cells of the
stylesheet's grid, and so see this grid. With a grid directive of the cells in front of all special
blocks the first pass has composed none. -/
theorem special_blocks_see_grid (h : generate kit seed tokens default = .ok compiled) :
    (∀ v ∈ itinerary kit seed tokens default, v.isSpecial = true →
      v.id ∉ (firstPass kit seed tokens).composed →
        v.cell ∈ compiled.grid.cells ∧ v.cell.grid = compiled.grid) ∧
    ∀ front declaration rest, tokens = front ++ .rule declaration :: rest →
      (∀ t ∈ Token.within front, t.NotSpecial) → declaration.property = "@grid" →
        (firstPass kit seed tokens).composed = [] := by
  obtain ⟨hfirst, -, hgrid, -⟩ := generate_passes h
  constructor
  · intro v hv hspecial hnew
    obtain hv | hv := List.mem_append.1 hv
    · -- All special blocks that the first pass visits are composed in it.
      rw [perform_expandCell] at hfirst
      have hstart : ((Expansion.ofSeed seed).enter true Cell.discovery).discovering = true := rfl
      exact absurd (composed_visits hstart hfirst v hv hspecial) hnew
    · have hcell : v.cell ∈ compiled.grid.cells := by
        rw [hgrid]
        exact cell_cellVisits v hv
      exact ⟨hcell, GridSize.grid_of_mem_cells hcell⟩
  · rintro front declaration rest rfl hfront hdirective
    exact composed_firstPass hfront hdirective hfirst

end Generation

/-- The declaration `--n: @size`. -/
def sizeRule : Rule := ⟨"--n", [[.call "@size" [] 0]], []⟩

/-- A grid directive for two cells, and behind it a block for the host. -/
def hostBehindGrid : List Token :=
  [.rule (.ofText "@grid" "1x2"), .pseudo 0 ":host" [sizeRule]]

/-- The block for the host sees two cells. -/
theorem special_blocks_see_grid_behind :
    ∃ compiled v, generate .builtin 1 hostBehindGrid {} = .ok compiled ∧
      v ∈ itinerary .builtin 1 hostBehindGrid {} ∧ v.isSpecial = true ∧
      v.cell.grid = compiled.grid ∧ v.runs .builtin = [(":host", ["--n: 2;"])] := by
  obtain ⟨compiled, h⟩ := exists_generate_eq
    (show (generate .builtin 1 hostBehindGrid {}).isOk = true by decide +kernel)
  have hvisits : ((itinerary .builtin 1 hostBehindGrid {}).head?.map fun v =>
      (v.isSpecial, v.runs .builtin)) = some (true, [(":host", ["--n: 2;"])]) := by decide +kernel
  obtain ⟨v, hhead, hv⟩ := Option.map_eq_some_iff.1 hvisits
  rw [Prod.mk.injEq] at hv
  have hmem := List.mem_of_mem_head? hhead
  have hsees := special_blocks_see_grid h
  have hnone := hsees.2 [] (.ofText "@grid" "1x2") [.pseudo 0 ":host" [sizeRule]] rfl
    (fun t ht => absurd ht List.not_mem_nil) rfl
  have hgrid := hsees.1 v hmem hv.1 (by rw [hnone]; exact List.not_mem_nil)
  exact ⟨compiled, v, h, hmem, hv.1, hgrid.2, hv.2⟩

/-! ### Special blocks in front -/

/-- A block for the host, and behind it a grid directive for two cells. -/
def hostBeforeGrid : List Token :=
  [.pseudo 0 ":host" [sizeRule], .rule (.ofText "@grid" "1x2")]

/-- In front of a grid directive a block for the host sees a grid of one, and so does one in a
stylesheet with the default grid. Both stylesheets are for two cells. -/
theorem host_block_sees_grid_of_one :
    (∃ compiled, generate .builtin 1 hostBeforeGrid {} = .ok compiled ∧
      compiled.grid = ⟨1, 2, 1⟩ ∧ compiled.styles.host = ":host \x7b\n  --n: 1;\n\x7d\n") ∧
    ∃ compiled, generate .builtin 1 [.pseudo 0 ":host" [sizeRule]] ⟨1, 2, 1⟩ = .ok compiled ∧
      compiled.grid = ⟨1, 2, 1⟩ ∧ compiled.styles.host = ":host \x7b\n  --n: 1;\n\x7d\n" := by
  have hblock : ":host \x7b\n  --n: 1;\n\x7d\n" = blockText Selector.host ["--n: 1;"] := by decide
  rw [hblock]
  constructor
  · have hrules : (secondPass .builtin 1 hostBeforeGrid {}).rules =
        (({} : RuleStore).push Selector.host "--n: 1;").dropCells := rfl
    refine exists_generate_host (by decide +kernel) ?_ (by decide +kernel)
    rw [hrules, RuleStore.toList_push_dropCells (by decide)]
  · have hrules : (secondPass .builtin 1 [.pseudo 0 ":host" [sizeRule]] ⟨1, 2, 1⟩).rules =
        (({} : RuleStore).push Selector.host "--n: 1;").dropCells := rfl
    refine exists_generate_host (by decide +kernel) ?_ (by decide +kernel)
    rw [hrules, RuleStore.toList_push_dropCells (by decide)]

end GridStyle
