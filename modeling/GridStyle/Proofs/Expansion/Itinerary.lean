import GridStyle.Proofs.Expansion.Lockstep
import GridStyle.Proofs.Generate

/-!
# The Blocks That a Walk Comes To

A walk comes to a pseudo block where the conditions around the block hold. `visits` lists these
visits in order, each with the state at that point, and `Itinerary` those of a whole generation.
An initial walk makes no visits once a grid is known.

A special block is composed at its first visit (`firsts`), once for each part of its selector. The
declarations for one part are a run (`Visit.runs`).
-/

namespace GridStyle

/-- A walk comes to a pseudo block. -/
structure Visit where
  /-- The cell that is walked. -/
  cell : Cell
  /-- The identity of the block. -/
  id : Nat
  /-- The selector of the block. -/
  selector : String
  /-- The rules of the block. -/
  styles : List Rule
  /-- The state in which the walk comes to the block. -/
  before : Expansion

mutual

/-- The visits of a walk over tokens, from a state on. -/
def visits (kit : Toolkit) (cell : Cell) (initial : Bool) : List Token → Expansion → List Visit
  | [], _ => []
  | token :: rest, s =>
    if initial = true ∧ s.grid.isSome then []
    else tokenVisits kit cell initial token s ++
      visits kit cell initial rest ((expandToken kit cell initial token).perform s).2

/-- The visits of the walk of one token. -/
def tokenVisits (kit : Toolkit) (cell : Cell) (initial : Bool) : Token → Expansion → List Visit
  | .rule declaration, s => ruleVisits kit cell declaration s
  | .pseudo id selector styles, s => [⟨cell, id, selector, styles, s⟩]
  | .condition name arguments styles, s =>
    match (Expanding.act (holds kit cell name arguments)).perform s with
    | (.ok true, s') => visits kit cell initial styles s'
    | _ => []
  | .keyframes _ _, _ => []

/-- The visits in what a rule includes. -/
def ruleVisits (kit : Toolkit) (cell : Cell) : RuleOf Token → Expansion → List Visit
  | ⟨property, value, styles⟩, s =>
    if property = "@use" then
      match (Expanding.act (groupTexts kit.functions cell value)).perform s with
      | (.ok _, s') => visits kit cell s'.discovering styles s'
      | _ => []
    else []

end

/-- The visits in some cells, one cell after the other. -/
def cellVisits (kit : Toolkit) (tokens : List Token) : List Cell → Expansion → List Visit
  | [], _ => []
  | cell :: cells, s =>
    visits kit cell false tokens (s.enter false cell) ++
      cellVisits kit tokens cells ((expandCell kit false tokens cell).perform s).2

namespace Visit

/-- The visited block is special. -/
def isSpecial (v : Visit) : Bool := Selector.isSpecial (Selector.normalize v.selector)

end Visit

/-- The first visits of the special blocks whose identities are not seen yet. -/
def firsts : List Nat → List Visit → List Visit
  | _, [] => []
  | seen, v :: rest =>
    if v.isSpecial = true ∧ v.id ∉ seen then v :: firsts (v.id :: seen) rest
    else firsts seen rest

/-! ### Runs -/

/-- The declarations of one block for one selector. -/
abbrev Run := String × List String

/-- The runs for a selector, without the selector. -/
def runsInto (selector : String) (runs : List Run) : List (List String) :=
  runs.filterMap fun run => if run.1 = selector then some run.2 else none

/-- The texts of rules that are composed for a selector one after the other. -/
def composedTexts (kit : Toolkit) (cell : Cell) (selector : String) :
    List Rule → Expansion → List String
  | [], _ => []
  | declaration :: rest, s =>
    match (composeRule kit cell (some selector) declaration).perform s with
    | (.ok text, s') => text :: composedTexts kit cell selector rest (s'.push selector text)
    | (.error _, _) => []

/-- The runs of rules for the parts of a selector list: for every part its selector and the texts
that are not empty. -/
def partRuns (kit : Toolkit) (cell : Cell) (styles : List Rule) :
    List String → Expansion → List Run
  | [], _ => []
  | part :: rest, s =>
    (Selector.normalize part, (composedTexts kit cell (Selector.normalize part) styles s).filter
      (· ≠ "")) ::
      partRuns kit cell styles rest
        ((expandRules kit cell (Selector.normalize part) styles).perform s).2

/-- The runs of a special block that is composed at a visit. -/
def Visit.runs (kit : Toolkit) (v : Visit) : List Run :=
  partRuns kit v.cell v.styles (selectorParts (Selector.normalize v.selector))
    (v.before.apply (.begin v.id))

/-! ### Whole generations -/

section Generation

variable (kit : Toolkit) (seed : UInt64) (tokens : List Token) (default : GridSize)

/-- The state that the first pass leaves. -/
def firstPass : Expansion :=
  ((expandCell kit true tokens Cell.discovery).perform (.ofSeed seed)).2

/-- The cells that the second pass visits: those of the grid that the first pass found, or of the
default. -/
def visitedCells : List Cell := ((firstPass kit seed tokens).grid.getD default).cells

/-- The state that the second pass leaves. -/
def secondPass : Expansion :=
  ((expandGrid kit seed tokens ((firstPass kit seed tokens).grid.getD default)).perform
    (firstPass kit seed tokens)).2

/-- The visits of both passes. -/
def itinerary : List Visit :=
  visits kit Cell.discovery true tokens ((Expansion.ofSeed seed).enter true Cell.discovery) ++
    cellVisits kit tokens (visitedCells kit seed tokens default)
      ((firstPass kit seed tokens).restart seed)

end Generation

/-- A generation that succeeds: both passes succeed, and it renders what they left. -/
theorem generate_passes {kit : Toolkit} {seed : UInt64} {tokens : List Token}
    {default : GridSize} {compiled : Compiled}
    (h : generate kit seed tokens default = .ok compiled) :
    (expandCell kit true tokens Cell.discovery).perform (.ofSeed seed) =
      (.ok (), firstPass kit seed tokens) ∧
    (compiled.grid.cells.forM (expandCell kit false tokens)).perform
      ((firstPass kit seed tokens).restart seed) =
        (.ok (), secondPass kit seed tokens default) ∧
    compiled.grid = (firstPass kit seed tokens).grid.getD default ∧
    compiled.styles = { Stylesheet.ofRules (secondPass kit seed tokens default).rules.toList with
      keyframes := compiled.styles.keyframes } := by
  obtain ⟨s₁, s₂, s₃, keyframes, hfirst, hsecond, -, rfl⟩ := generate_eq_ok h
  have hone : firstPass kit seed tokens = s₁ := by rw [firstPass, hfirst]
  have htwo : secondPass kit seed tokens default = s₂ := by
    rw [secondPass, hone, perform_expandGrid, hsecond]
  rw [hone, htwo]
  exact ⟨hfirst, hsecond, rfl, rfl⟩

/-- What the walks keep, and what is done between them, holds in the end of both passes, whether or
not they succeed. -/
theorem secondPass_of_kept {kit : Toolkit} {seed : UInt64} {tokens : List Token}
    {default : GridSize} {admitted : Token → Prop} {I : Expansion → Prop}
    (hadmitted : ∀ t ∈ Token.within tokens, admitted t)
    (hkept : ∀ cell initial, Kept cell initial admitted fun s => s.discovering = initial ∧ I s)
    (henter : ∀ {s : Expansion} initial cell, I s → I (s.enter initial cell))
    (hrestart : ∀ {s : Expansion}, I s → I (s.restart seed)) (hfresh : I (.ofSeed seed)) :
    I (secondPass kit seed tokens default) := by
  have hvisit : ∀ {s : Expansion} initial cell, I s →
      I ((expandCell kit initial tokens cell).perform s).2 := by
    intro s initial cell hs
    rw [Expanding.perform_expandCell]
    exact ((hkept cell initial).expandTokens hadmitted ⟨rfl, henter initial cell hs⟩).2
  have hvisits : ∀ (cells : List Cell) {s : Expansion}, I s →
      I ((cells.forM (expandCell kit false tokens)).perform s).2 := by
    intro cells
    induction cells with
    | nil => exact id
    | cons cell cells ih =>
      intro s hs
      have hcell := hvisit false cell hs
      rw [Expanding.perform_forM_cons, Expanding.perform_bind]
      rcases hrun : (expandCell kit false tokens cell).perform s with ⟨outcome, s'⟩
      rw [hrun] at hcell
      -- A visit that fails is the last one.
      cases outcome with
      | ok _ => exact ih hcell
      | error _ => exact hcell
  rw [secondPass, perform_expandGrid]
  exact hvisits _ (hrestart (hvisit true Cell.discovery hfresh))

/-- If the host's selector is the only one, with one declaration, this is the host's section. -/
theorem host_of_toList {kit : Toolkit} {seed : UInt64} {tokens : List Token} {default : GridSize}
    {compiled : Compiled} (h : generate kit seed tokens default = .ok compiled) {text : String}
    (hrules : (secondPass kit seed tokens default).rules.toList = [(Selector.host, [text])]) :
    compiled.styles.host = blockText Selector.host [text] := by
  obtain ⟨-, -, -, hstyles⟩ := generate_passes h
  have hsection := Stylesheet.host_ofRules (secondPass kit seed tokens default).rules.toList
  have hhost : Selector.isHost Selector.host = true := by decide
  have hone : [(Selector.host, [text])].filter (fun rule => Selector.isHost rule.1) =
      [(Selector.host, [text])] := List.filter_cons_of_pos hhost
  rw [hrules, hone, Stylesheet.blocks, List.map_cons, List.map_nil, String.join_cons,
    String.join_nil, String.append_empty] at hsection
  rw [hstyles, hrules]
  exact hsection

/-- A generation of a known grid, after which only the host has a declaration. -/
theorem exists_generate_host {kit : Toolkit} {seed : UInt64} {tokens : List Token}
    {default size : GridSize} {text : String}
    (hok : (generate kit seed tokens default).isOk = true)
    (hrules : (secondPass kit seed tokens default).rules.toList = [(Selector.host, [text])])
    (hgrid : (firstPass kit seed tokens).grid.getD default = size) :
    ∃ compiled, generate kit seed tokens default = .ok compiled ∧ compiled.grid = size ∧
      compiled.styles.host = blockText Selector.host [text] := by
  obtain ⟨compiled, h⟩ := exists_generate_eq hok
  exact ⟨compiled, h, (generate_passes h).2.2.1.trans hgrid, host_of_toList h hrules⟩

/-! ### First visits -/

/-- Only which identities are seen matters. -/
theorem firsts_congr {seen seen' : List Nat} (h : ∀ id, id ∈ seen ↔ id ∈ seen')
    (vs : List Visit) : firsts seen vs = firsts seen' vs := by
  induction vs generalizing seen seen' with
  | nil => rfl
  | cons v vs ih =>
    have hcons : ∀ id, id ∈ v.id :: seen ↔ id ∈ v.id :: seen' := by
      intro id
      rw [List.mem_cons, List.mem_cons, h]
    simp only [firsts, h v.id, ih h, ih hcons]

/-- The identities that are seen after some visits. -/
def SeenAfter (seen : List Nat) (vs : List Visit) (seen' : List Nat) : Prop :=
  ∀ id, id ∈ seen' ↔ id ∈ seen ∨ ∃ v ∈ vs, v.isSpecial = true ∧ v.id = id

/-- After the first visit of a block it is seen before all that follows. -/
theorem SeenAfter.of_first {seen seen' : List Nat} {v : Visit} {vs : List Visit}
    (hspecial : v.isSpecial = true) (h : SeenAfter seen (v :: vs) seen') :
    SeenAfter (v.id :: seen) vs seen' := by
  intro id
  rw [h id, List.mem_cons]
  constructor
  · rintro (hold | ⟨w, hw, hw', rfl⟩)
    · exact .inl (.inr hold)
    · obtain rfl | hmem := List.mem_cons.1 hw
      · exact .inl (.inl rfl)
      · exact .inr ⟨w, hmem, hw', rfl⟩
  · rintro ((rfl | hold) | ⟨w, hmem, hw', rfl⟩)
    · exact .inr ⟨v, List.mem_cons_self, hspecial, rfl⟩
    · exact .inl hold
    · exact .inr ⟨w, List.mem_cons_of_mem v hmem, hw', rfl⟩

/-- Any other visit adds nothing to what is seen. -/
theorem SeenAfter.of_not_first {seen seen' : List Nat} {v : Visit} {vs : List Visit}
    (hnot : ¬ (v.isSpecial = true ∧ v.id ∉ seen)) (h : SeenAfter seen (v :: vs) seen') :
    SeenAfter seen vs seen' := by
  intro id
  rw [h id]
  constructor
  · rintro (hold | ⟨w, hw, hspecial, rfl⟩)
    · exact .inl hold
    · obtain rfl | hmem := List.mem_cons.1 hw
      · exact .inl (by_contra fun hnew => hnot ⟨hspecial, hnew⟩)
      · exact .inr ⟨w, hmem, hspecial, rfl⟩
  · rintro (hold | ⟨w, hmem, hspecial, rfl⟩)
    · exact .inl hold
    · exact .inr ⟨w, List.mem_cons_of_mem v hmem, hspecial, rfl⟩

/-- First visits go on with the identities that are seen by then. -/
theorem firsts_append {seen seen' : List Nat} {vs : List Visit} (h : SeenAfter seen vs seen')
    (vs' : List Visit) : firsts seen (vs ++ vs') = firsts seen vs ++ firsts seen' vs' := by
  induction vs generalizing seen with
  | nil =>
    rw [List.nil_append, firsts, List.nil_append]
    exact firsts_congr (fun id => by rw [h id]; simp) vs'
  | cons v vs ih =>
    rw [List.cons_append, firsts, firsts]
    split
    · next hfirst => rw [ih (h.of_first hfirst.1), List.cons_append]
    · next hnot => exact ih (h.of_not_first hnot)

/-- No identity is among the first visits twice, or if it was seen before. -/
theorem nodup_firsts (seen : List Nat) (vs : List Visit) :
    ((firsts seen vs).map Visit.id).Nodup ∧ ∀ v ∈ firsts seen vs, v.id ∉ seen := by
  induction vs generalizing seen with
  | nil => exact ⟨List.nodup_nil, fun v hv => absurd hv List.not_mem_nil⟩
  | cons v vs ih =>
    rw [firsts]
    split
    · next hfirst =>
      -- The identity counts as seen for all later visits.
      obtain ⟨hnodup, hunseen⟩ := ih (v.id :: seen)
      rw [List.map_cons, List.nodup_cons, List.forall_mem_cons]
      refine ⟨⟨fun hmem => ?_, hnodup⟩, hfirst.2, fun w hw hold => ?_⟩
      · obtain ⟨w, hw, heq⟩ := List.mem_map.1 hmem
        exact hunseen w hw (by rw [heq]; exact List.mem_cons_self)
      · exact hunseen w hw (List.mem_cons_of_mem v.id hold)
    · exact ih seen

/-- First visits are visits, in their order. -/
theorem firsts_sublist (seen : List Nat) (vs : List Visit) : (firsts seen vs).Sublist vs := by
  induction vs generalizing seen with
  | nil => exact List.Sublist.refl []
  | cons v vs ih =>
    rw [firsts]
    split
    · exact (ih _).cons_cons v
    · exact (ih seen).cons v

/-- Before a first visit no visit comes to a special block with its identity. -/
theorem exists_eq_append_of_mem_firsts {seen : List Nat} {vs : List Visit} {w : Visit}
    (hw : w ∈ firsts seen vs) :
    ∃ before after, vs = before ++ w :: after ∧
      ∀ u ∈ before, u.isSpecial = true → u.id ≠ w.id := by
  induction vs generalizing seen with
  | nil => exact absurd hw List.not_mem_nil
  | cons v vs ih =>
    rw [firsts] at hw
    split at hw
    · obtain rfl | hlater := List.mem_cons.1 hw
      · exact ⟨[], vs, rfl, fun u hu => absurd hu List.not_mem_nil⟩
      · obtain ⟨before, after, rfl, hbefore⟩ := ih hlater
        refine ⟨v :: before, after, rfl, List.forall_mem_cons.2 ⟨fun _ heq => ?_, hbefore⟩⟩
        exact (nodup_firsts (v.id :: seen) _).2 w hlater (by rw [heq]; exact List.mem_cons_self)
    · next hnot =>
      obtain ⟨before, after, rfl, hbefore⟩ := ih hw
      refine ⟨v :: before, after, rfl,
        List.forall_mem_cons.2 ⟨fun hspecial heq => hnot ⟨hspecial, ?_⟩, hbefore⟩⟩
      rw [heq]
      exact (nodup_firsts seen _).2 w hw

/-- Every special block that is visited has a first visit, unless it was seen before. -/
theorem exists_mem_firsts {seen : List Nat} {vs : List Visit} {v : Visit} (hv : v ∈ vs)
    (hspecial : v.isSpecial = true) (hnew : v.id ∉ seen) : ∃ w ∈ firsts seen vs, w.id = v.id := by
  induction vs generalizing seen with
  | nil => exact absurd hv List.not_mem_nil
  | cons u vs ih =>
    rw [firsts]
    split
    · by_cases heq : u.id = v.id
      · exact ⟨u, List.mem_cons_self, heq⟩
      · obtain rfl | hmem := List.mem_cons.1 hv
        · exact absurd rfl heq
        · have hnew' : v.id ∉ u.id :: seen := by
            rw [List.mem_cons, not_or]
            exact ⟨fun h => heq h.symm, hnew⟩
          obtain ⟨w, hw, hid⟩ := ih hmem hnew'
          exact ⟨w, List.mem_cons_of_mem u hw, hid⟩
    · next hnot =>
      obtain rfl | hmem := List.mem_cons.1 hv
      · exact absurd ⟨hspecial, hnew⟩ hnot
      · exact ih hmem hnew

/-! ### Visited blocks -/

/-- The block of the visit is one of a tree. -/
def Visit.IsIn (v : Visit) (tree : List Token) : Prop :=
  Token.pseudo v.id v.selector v.styles ∈ tree

section IsIn

variable {kit : Toolkit} {cell : Cell}

mutual

/-- A walk comes to blocks of its tree only. -/
theorem isIn_visits : ∀ {initial : Bool} {tokens : List Token} {s : Expansion},
    ∀ v ∈ visits kit cell initial tokens s, v.IsIn (Token.within tokens)
  | initial, [], s => by
    intro v hv
    exact absurd hv List.not_mem_nil
  | initial, token :: rest, s => by
    intro v hv
    rw [visits] at hv
    split at hv
    · exact absurd hv List.not_mem_nil
    · rw [Visit.IsIn, Token.within, ← List.cons_append, List.mem_append]
      obtain hv | hv := List.mem_append.1 hv
      · exact .inl (isIn_tokenVisits v hv)
      · exact .inr (isIn_visits v hv)

/-- The walk of a token comes to the token or to blocks in it. -/
theorem isIn_tokenVisits : ∀ {initial : Bool} {token : Token} {s : Expansion},
    ∀ v ∈ tokenVisits kit cell initial token s, v.IsIn (token :: token.inside)
  | initial, .rule declaration, s => by
    intro v hv
    exact List.mem_cons_of_mem _ (isIn_ruleVisits v hv)
  | initial, .pseudo id selector styles, s => by
    intro v hv
    rw [tokenVisits, List.mem_singleton] at hv
    subst hv
    exact List.mem_cons_self
  | initial, .condition name arguments styles, s => by
    intro v hv
    rw [tokenVisits] at hv
    split at hv
    · exact List.mem_cons_of_mem _ (isIn_visits v hv)
    · exact absurd hv List.not_mem_nil
  | initial, .keyframes name steps, s => by
    intro v hv
    exact absurd hv List.not_mem_nil

/-- An inclusion comes to blocks that it includes. -/
theorem isIn_ruleVisits : ∀ {declaration : RuleOf Token} {s : Expansion},
    ∀ v ∈ ruleVisits kit cell declaration s, v.IsIn (Token.insideRule declaration)
  | ⟨property, value, styles⟩, s => by
    intro v hv
    rw [ruleVisits] at hv
    split at hv
    · split at hv
      · exact isIn_visits v hv
      · exact absurd hv List.not_mem_nil
    · exact absurd hv List.not_mem_nil

end

/-- Visits of cells come to blocks of the tree only. -/
theorem isIn_cellVisits {tokens : List Token} : ∀ {cells : List Cell} {s : Expansion},
    ∀ v ∈ cellVisits kit tokens cells s, v.IsIn (Token.within tokens)
  | [], s => fun v hv => absurd hv List.not_mem_nil
  | cell :: cells, s => by
    intro v hv
    obtain hv | hv := List.mem_append.1 hv
    · exact isIn_visits v hv
    · exact isIn_cellVisits v hv

/-- A generation comes to blocks of its tree only. -/
theorem isIn_itinerary {seed : UInt64} {tokens : List Token} {default : GridSize} :
    ∀ v ∈ itinerary kit seed tokens default, v.IsIn (Token.within tokens) := by
  intro v hv
  obtain hv | hv := List.mem_append.1 hv
  · exact isIn_visits v hv
  · exact isIn_cellVisits v hv

end IsIn

/-- The runs of a block are those of its parts in their order. -/
theorem map_fst_partRuns (kit : Toolkit) (cell : Cell) (styles : List Rule)
    (parts : List String) (s : Expansion) :
    (partRuns kit cell styles parts s).map Prod.fst = parts.map Selector.normalize := by
  induction parts generalizing s with
  | nil => rfl
  | cons part rest ih => rw [partRuns, List.map_cons, List.map_cons, ih]

end GridStyle
