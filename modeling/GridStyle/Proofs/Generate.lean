import GridStyle.Generate
import GridStyle.Proofs.Expansion.Step

/-!
# Two Passes and a Stylesheet

A generation that succeeds consists of two passes and the rendering of what they left
(`generate_eq_ok`). The sections of a stylesheet are made selector by selector, and where no
selector is special there are only rules of cells (`ofRules_of_not_isSpecial`).
-/

namespace GridStyle

/-- The state in which the second pass begins: what belongs to cells is forgotten, and the
context is as fresh as at first. -/
def Expansion.restart (s : Expansion) (seed : UInt64) : Expansion :=
  { s.resetCells with context := Context.ofSeed seed }

/-! ### The passes -/

section Passes

variable {kit : Toolkit} {seed : UInt64} {tokens : List Token} {default : GridSize}

open Expanding

/-- The second pass visits the cells of the grid one after the other. -/
theorem perform_expandGrid (grid : GridSize) (s : Expansion) :
    (expandGrid kit seed tokens grid).perform s =
      (grid.cells.forM (expandCell kit false tokens)).perform (s.restart seed) := rfl

/-- A generation that succeeds: the first pass finds out the grid, the second visits its cells,
and what they left is rendered. -/
theorem generate_eq_ok {compiled : Compiled}
    (h : generate kit seed tokens default = .ok compiled) :
    ∃ s₁ s₂ s₃ keyframes,
      (expandCell kit true tokens Cell.discovery).perform (.ofSeed seed) = (.ok (), s₁) ∧
      ((s₁.grid.getD default).cells.forM (expandCell kit false tokens)).perform
        (s₁.restart seed) = (.ok (), s₂) ∧
      (keyframesSection kit).perform s₂ = (.ok keyframes, s₃) ∧
      compiled = ⟨s₃.features, { Stylesheet.ofRules s₂.rules.toList with keyframes },
        s₁.grid.getD default⟩ := by
  have hrun : (generation kit seed tokens default).perform (.ofSeed seed) = (.ok compiled,
      ((generation kit seed tokens default).perform (.ofSeed seed)).2) := Prod.ext h rfl
  -- The run is taken apart at every `bind`.
  rw [generation, perform_bind_ok] at hrun
  obtain ⟨found, s₁', hdiscover, hrest⟩ := hrun
  rw [discover, perform_bind_ok] at hdiscover
  obtain ⟨_, s₁, hfirst, hgrid⟩ := hdiscover
  rw [perform_get_bind, perform_pure_ok] at hgrid
  obtain ⟨rfl, rfl⟩ := hgrid
  rw [perform_bind_ok] at hrest
  obtain ⟨_, s₂, hsecond, hrest⟩ := hrest
  rw [perform_get_bind, perform_bind_ok] at hrest
  obtain ⟨keyframes, s₃, hkeyframes, hdone⟩ := hrest
  rw [perform_get_bind, perform_pure_ok] at hdone
  exact ⟨s₁, s₂, s₃, keyframes, hfirst, hsecond, hkeyframes, hdone.1.symm⟩

/-- What succeeds has a result. -/
theorem exists_of_isOk {ε α : Type} {x : Except ε α} (h : x.isOk = true) : ∃ a, x = .ok a := by
  cases x with
  | ok a => exact ⟨a, rfl⟩
  | error e => exact absurd h Bool.false_ne_true

/-- A generation that succeeds has a stylesheet. -/
theorem exists_generate_eq (h : (generate kit seed tokens default).isOk = true) :
    ∃ compiled, generate kit seed tokens default = .ok compiled :=
  exists_of_isOk h

/-- A generation whose passes and whose rendering succeed is one that succeeds. -/
theorem generate_of_passes {s₁ s₂ s₃ : Expansion} {keyframes : String}
    (hfirst : (expandCell kit true tokens Cell.discovery).perform (.ofSeed seed) = (.ok (), s₁))
    (hsecond : ((s₁.grid.getD default).cells.forM (expandCell kit false tokens)).perform
      (s₁.restart seed) = (.ok (), s₂))
    (hsection : (keyframesSection kit).perform s₂ = (.ok keyframes, s₃)) :
    generate kit seed tokens default = .ok ⟨s₃.features,
      { Stylesheet.ofRules s₂.rules.toList with keyframes }, s₁.grid.getD default⟩ := by
  have hdiscover : (discover kit tokens).perform (.ofSeed seed) = (.ok s₁.grid, s₁) := by
    rw [discover, perform_bind, hfirst]
    rfl
  have hrun : (generation kit seed tokens default).perform (.ofSeed seed) =
      (.ok ⟨s₃.features, { Stylesheet.ofRules s₂.rules.toList with keyframes },
        s₁.grid.getD default⟩, s₃) := by
    rw [generation, perform_bind_ok]
    refine ⟨s₁.grid, s₁, hdiscover, ?_⟩
    rw [perform_bind_ok]
    refine ⟨(), s₂, hsecond, ?_⟩
    rw [perform_get_bind, perform_bind_ok]
    exact ⟨keyframes, s₃, hsection, rfl⟩
  rw [generate, hrun]

end Passes

/-! ### The sections -/

namespace Stylesheet

/-- The blocks of some selectors. -/
def blocks (rules : List (String × List String)) : String :=
  String.join (rules.map fun rule => blockText rule.1 rule.2)

theorem blocks_append (rules rules' : List (String × List String)) :
    blocks (rules ++ rules') = blocks rules ++ blocks rules' := by
  rw [blocks, List.map_append, String.join_append]
  rfl

/-- The block of a selector that is not special goes to the cells. -/
theorem addBlock_of_not_isSpecial (s : Stylesheet) {selector : String}
    (h : Selector.isSpecial selector = false) (declarations : List String) :
    s.addBlock selector declarations =
      { s with cells := s.cells ++ blockText selector declarations } := by
  rw [Selector.isSpecial, Bool.or_eq_false_iff, Selector.isContainer] at h
  obtain ⟨hhost, hcontainer⟩ := h
  rw [Option.isSome_eq_false_iff, Option.isNone_iff_eq_none] at hcontainer
  rw [addBlock, hcontainer]
  simp only [hhost, Bool.false_eq_true, if_false]

/-- The block of a selector goes to the host's section exactly if it is one of the host. -/
theorem host_addBlock (s : Stylesheet) (selector : String) (declarations : List String) :
    (s.addBlock selector declarations).host =
      s.host ++ if Selector.isHost selector then blockText selector declarations else "" := by
  rw [addBlock]
  cases hhost : Selector.isHost selector with
  | true =>
    have hcontainer := Selector.isContainer_eq_false_of_isHost hhost
    rw [Selector.isContainer, Option.isSome_eq_false_iff, Option.isNone_iff_eq_none] at hcontainer
    rw [hcontainer]
    rfl
  | false =>
    have hnothing : (if false = true then blockText selector declarations else "") = "" :=
      if_neg Bool.false_ne_true
    rw [hnothing, String.append_empty]
    -- The container's section may grow, or that of the cells.
    split <;> rfl

/-- The host's section has the blocks of the selectors for the host. -/
theorem host_ofRules (rules : List (String × List String)) :
    (ofRules rules).host = blocks (rules.filter fun rule => Selector.isHost rule.1) := by
  have hfold : ∀ s : Stylesheet, (rules.foldl (fun s rule => s.addBlock rule.1 rule.2) s).host =
      s.host ++ blocks (rules.filter fun rule => Selector.isHost rule.1) := by
    induction rules with
    | nil =>
      intro s
      exact (String.append_empty (s := s.host)).symm
    | cons rule rules ih =>
      intro s
      rw [List.foldl_cons, ih, host_addBlock, List.filter_cons, String.append_assoc]
      cases Selector.isHost rule.1 with
      | true => rw [if_pos rfl, if_pos rfl, blocks, blocks, List.map_cons, String.join_cons]
      | false => rw [if_neg Bool.false_ne_true, if_neg Bool.false_ne_true, String.empty_append]
  rw [ofRules, hfold, String.empty_append]

/-- Where no selector is special there are only rules of cells. -/
theorem ofRules_of_not_isSpecial {rules : List (String × List String)}
    (h : ∀ selector ∈ rules.map Prod.fst, Selector.isSpecial selector = false) :
    ofRules rules = { cells := blocks rules } := by
  have hfold : ∀ s : Stylesheet, rules.foldl (fun s rule => s.addBlock rule.1 rule.2) s =
      { s with cells := s.cells ++ blocks rules } := by
    induction rules with
    | nil =>
      intro s
      rw [blocks, List.map_nil, String.join_nil, String.append_empty]
      rfl
    | cons rule rules ih =>
      intro s
      rw [List.map_cons, List.forall_mem_cons] at h
      rw [List.foldl_cons, addBlock_of_not_isSpecial s h.1, ih h.2]
      simp only [blocks, List.map_cons, String.join_cons, String.append_assoc]
  rw [ofRules, hfold]
  simp only [String.empty_append]

end Stylesheet

end GridStyle
