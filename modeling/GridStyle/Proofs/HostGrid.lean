import GridStyle.Generate
import GridStyle.Proofs.Expansion.Search
import GridStyle.Proofs.Steady

/-!
# The Two Ways to Find the Grid of the Host

The initial walk comes upon the grid of the host by composing the blocks of the host. After a grid
directive of a cell it composes nothing more and searches the tokens that are left. Both find the
same grid, wherever in the tree they change from the one to the other.

* `exists_finds_of_seekHostGrid`: a search that succeeds in one state finds the same in all.
* `exists_finds_of_expandTokens`: what a walk finds is what a search of the same tokens finds.
* `hostGrid_after_cellGrid`: the walk with a grid directive in front ends with the host's grid of
  the walk without it, and composes nothing but the directive.
-/

namespace GridStyle

/-- In every state in which no grid of the host is known, the step takes over a certain grid, if
any, and does nothing else. -/
def Finds (step : Expanding Unit) (found : Option GridSize) : Prop :=
  ∀ t, t.hostGrid = false → step.perform t = (.ok (), t.adopt found)

/-- Values and conditions are steady in a cell, selectors are no lists, and nothing is included. -/
def Searchable (kit : Toolkit) (cell : Cell) : Token → Prop
  | .rule declaration =>
    declaration.property ≠ "@use" ∧ (groupTexts kit.functions cell declaration.value).Steady
  | .pseudo _ selector _ => Selector.IsSingle selector
  | .condition name arguments _ => (holds kit cell name arguments).Steady
  | .keyframes _ _ => True

section Search

variable {kit : Toolkit} {cell : Cell} {s s' : Expansion}

open Expanding

/-- A steady action succeeds in all states if it does in one, and changes none. -/
theorem Action.Steady.perform_act {α : Type} {action : Action α} (hsteady : action.Steady) {a : α}
    (h : (act action).perform s = (.ok a, s')) (t : Expansion) :
    (act action).perform t = (.ok a, t) := by
  obtain ⟨outcome, houtcome⟩ := hsteady
  rw [Expanding.perform_act, houtcome, Prod.mk.injEq] at h
  rw [Expanding.perform_act, houtcome, h.1, Expansion.withContext_context]

/-- A search finds what it finds in the first token, and else what it finds in the others. -/
theorem Finds.cons {token : Token} {rest : List Token} {first second : Option GridSize}
    (hfirst : Finds (seekToken kit cell token) first)
    (hsecond : first = none → Finds (seekHostGrid kit cell rest) second) :
    Finds (seekHostGrid kit cell (token :: rest)) (first.or second) := by
  intro t ht
  rw [perform_seekHostGrid_cons, if_neg (by rw [ht]; decide), perform_bind, hfirst t ht]
  cases first with
  | none => exact hsecond rfl t ht
  | some size => exact perform_seekHostGrid_of_hostGrid rest (by simp)

/-- A search passes over rules. -/
theorem Finds.rule (declaration : Rule) : Finds (seekToken kit cell (.rule declaration)) none := by
  intro t _
  rw [seekToken]
  rfl

/-- A search passes over keyframes. -/
theorem Finds.keyframes (name : String) (steps : List Step) :
    Finds (seekToken kit cell (.keyframes name steps)) none := by
  intro t _
  rw [seekToken]
  rfl

/-- A search in a condition that holds is a search in its tokens. -/
theorem Finds.condition_true {name : String} {arguments : List Argument} {styles : List Token}
    {found : Option GridSize} (hsteady : (holds kit cell name arguments).Steady)
    (hholds : (act (holds kit cell name arguments)).perform s = (.ok true, s'))
    (h : Finds (seekHostGrid kit cell styles) found) :
    Finds (seekToken kit cell (.condition name arguments styles)) found := by
  intro t ht
  rw [seekToken, perform_bind, hsteady.perform_act hholds t]
  exact h t ht

/-- A search in a condition that does not hold finds nothing. -/
theorem Finds.condition_false {name : String} {arguments : List Argument} {styles : List Token}
    (hsteady : (holds kit cell name arguments).Steady)
    (hholds : (act (holds kit cell name arguments)).perform s = (.ok false, s')) :
    Finds (seekToken kit cell (.condition name arguments styles)) none := by
  intro t ht
  rw [seekToken, perform_bind, hsteady.perform_act hholds t]
  rfl

/-- In a block for the host a search finds what it finds in the rules of the block. -/
theorem Finds.pseudo {id : Nat} {selector : String} {styles : List Rule}
    {found : Option GridSize} (haddress : addressesHost selector = true)
    (h : ∀ t, (seekGrids kit cell styles).perform t = (.ok (), t.adopt found)) :
    Finds (seekToken kit cell (.pseudo id selector styles)) found := by
  intro t _
  rw [seekToken, if_pos haddress]
  exact h t

/-- In any other block a search finds nothing. -/
theorem Finds.pseudo_none {id : Nat} {selector : String} {styles : List Rule}
    (haddress : ¬ addressesHost selector = true) :
    Finds (seekToken kit cell (.pseudo id selector styles)) none := by
  intro t _
  rw [seekToken, if_neg haddress]
  rfl

/-- A search in the rules of a block that succeeds in one state finds the same in all states. -/
theorem exists_finds_of_seekGrids : ∀ {styles : List Rule} {s s' : Expansion},
    (∀ r ∈ styles, Searchable kit cell (.rule r)) →
    (seekGrids kit cell styles).perform s = (.ok (), s') →
    ∃ found, ∀ t, (seekGrids kit cell styles).perform t = (.ok (), t.adopt found)
  | [], s, s', _, _ => ⟨none, fun t => rfl⟩
  | declaration :: rest, s, s', hsearch, h => by
    rw [List.forall_mem_cons] at hsearch
    by_cases hgrid : declaration.property = "@grid"
    · have h' := h
      rw [seekGrids, if_pos ((PropertyKind.ofName_eq_grid_iff _).2 hgrid), perform_bind_ok] at h'
      obtain ⟨texts, s₁, hact, -⟩ := h'
      have hsteady := hsearch.1.2.perform_act hact
      rw [perform_seekGrids_cons hgrid (hsteady s)] at h
      obtain ⟨found, hfound⟩ := exists_finds_of_seekGrids hsearch.2 h
      refine ⟨found.or (some (Directive.readGrid true (String.intercalate ", " texts)).1),
        fun t => ?_⟩
      rw [perform_seekGrids_cons hgrid (hsteady t), hfound, Expansion.adopt_adopt]
    · rw [seekGrids_cons_of_ne hgrid] at h ⊢
      exact exists_finds_of_seekGrids hsearch.2 h

mutual

/-- A search that succeeds in one state finds the same in all states. -/
theorem exists_finds_of_seekHostGrid : ∀ {tokens : List Token} {s s' : Expansion},
    (∀ t ∈ Token.within tokens, Searchable kit cell t) → s.hostGrid = false →
    (seekHostGrid kit cell tokens).perform s = (.ok (), s') →
    ∃ found, Finds (seekHostGrid kit cell tokens) found
  | [], s, s', _, _, _ => ⟨none, fun t _ => by rw [seekHostGrid]; rfl⟩
  | token :: rest, s, s', hsearch, hhost, h => by
    rw [Token.forall_within_cons] at hsearch
    rw [perform_seekHostGrid_cons, if_neg (by rw [hhost]; decide), perform_bind_ok] at h
    obtain ⟨_, s₁, htoken, hrest⟩ := h
    obtain ⟨first, hfirst⟩ :=
      exists_finds_of_seekToken hsearch.1 hsearch.2.1 hhost htoken
    cases first with
    | some size =>
      -- The search ends with the first token.
      have hfinds : Finds (seekHostGrid kit cell (token :: rest)) ((some size).or none) :=
        hfirst.cons fun hnone => absurd hnone (Option.some_ne_none size)
      exact ⟨_, hfinds⟩
    | none =>
      -- The first token changes nothing, so the others are searched from the same state.
      obtain rfl : s = s₁ := by
        rw [hfirst s hhost, Prod.mk.injEq] at htoken
        exact htoken.2
      obtain ⟨second, hsecond⟩ := exists_finds_of_seekHostGrid hsearch.2.2 hhost hrest
      exact ⟨_, hfirst.cons fun _ => hsecond⟩

/-- A search in one token that succeeds in one state finds the same in all states. -/
theorem exists_finds_of_seekToken : ∀ {token : Token} ⦃s s' : Expansion⦄,
    Searchable kit cell token → (∀ t ∈ token.inside, Searchable kit cell t) →
    s.hostGrid = false → (seekToken kit cell token).perform s = (.ok (), s') →
    ∃ found, Finds (seekToken kit cell token) found
  | .rule declaration => fun _ _ _ _ _ _ => ⟨none, Finds.rule declaration⟩
  | .keyframes name steps => fun _ _ _ _ _ _ => ⟨none, Finds.keyframes name steps⟩
  | .pseudo id selector styles => by
    intro s s' _ hin _ h
    by_cases haddress : addressesHost selector = true
    · rw [seekToken, if_pos haddress] at h
      obtain ⟨found, hfound⟩ :=
        exists_finds_of_seekGrids (Token.forall_rules_of_forall_withinRules hin) h
      exact ⟨found, Finds.pseudo haddress hfound⟩
    · exact ⟨none, Finds.pseudo_none haddress⟩
  | .condition name arguments styles => by
    intro s s' hsteady hin hhost h
    rw [seekToken, perform_bind_ok] at h
    obtain ⟨b, s₁, hholds, hstyles⟩ := h
    cases b with
    | false => exact ⟨none, Finds.condition_false hsteady hholds⟩
    | true =>
      -- A steady condition changes nothing.
      obtain rfl : s = s₁ := by
        rw [hsteady.perform_act hholds, Prod.mk.injEq] at hholds
        exact hholds.2
      obtain ⟨found, hfound⟩ := exists_finds_of_seekHostGrid hin hhost hstyles
      exact ⟨found, Finds.condition_true hsteady hholds hfound⟩

end

/-! ### Walks that find what a search finds -/

/-- What a walk leaves that found a grid of the host, if any, and composed some blocks. -/
structure Reaches (s : Expansion) (ids : List Nat) (found : Option GridSize) (s' : Expansion) :
    Prop where
  /-- The grid of the host is known exactly if one was found. -/
  hostGrid : s'.hostGrid = found.isSome
  /-- It is the one that was found. -/
  grid : ∀ size, found = some size → s'.grid = some size
  /-- No other blocks were composed. -/
  composed : ∀ id ∈ s'.composed, id ∈ s.composed ∨ id ∈ ids

/-- Taking over what was found is to reach it. -/
theorem Reaches.adopt {s : Expansion} (hhost : s.hostGrid = false) (ids : List Nat)
    (found : Option GridSize) : Reaches s ids found (s.adopt found) := by
  refine ⟨by simp [hhost], ?_, fun id hid => .inl ?_⟩
  · rintro size rfl
    rfl
  · cases found <;> exact hid

/-- Nothing is found where nothing happens. -/
theorem Reaches.refl {s : Expansion} (hhost : s.hostGrid = false) (ids : List Nat) :
    Reaches s ids none s :=
  Reaches.adopt hhost ids none

/-- A walk that found nothing, and then one that found something or nothing. -/
theorem Reaches.trans {s s₁ s' : Expansion} {ids ids' : List Nat} {found : Option GridSize}
    (h₁ : Reaches s ids none s₁) (h₂ : Reaches s₁ ids' found s') :
    Reaches s (ids ++ ids') found s' := by
  refine ⟨h₂.hostGrid, h₂.grid, fun id hid => ?_⟩
  rw [List.mem_append]
  obtain hmem | hmem := h₂.composed id hid
  · exact (h₁.composed id hmem).imp_right .inl
  · exact .inr (.inr hmem)

/-- More blocks may count as those that were composed. -/
theorem Reaches.mono {s s' : Expansion} {ids ids' : List Nat} {found : Option GridSize}
    (h : Reaches s ids found s') (hids : ids ⊆ ids') : Reaches s ids' found s' :=
  ⟨h.hostGrid, h.grid, fun id hid => (h.composed id hid).imp_right (hids ·)⟩

/-- A rule that sets no grid leaves the grids and the composed blocks alone. -/
theorem perform_composeRule_of_ne {target : Option String} {declaration : Rule} {text : String}
    (huse : declaration.property ≠ "@use") (hgrid : declaration.property ≠ "@grid")
    (h : (composeRule kit cell target declaration).perform s = (.ok text, s')) :
    s'.hostGrid = s.hostGrid ∧ s'.grid = s.grid ∧ s'.composed = s.composed := by
  obtain ⟨texts, c, -, -, rfl⟩ := (perform_composeRule_ok kit cell huse).1 h
  rw [gridChanges, if_neg hgrid, Expansion.applyAll_nil]
  refine ⟨?_, Expansion.grid_apply_note _ _, Expansion.composed_apply _ (by simp)⟩
  exact Expansion.hostGrid_apply _ (by simp) (by simp)

/-- A rule for anything but the host leaves the host's grid and the composed blocks alone. -/
theorem perform_composeRule_of_not_isHost {target : Option String} {declaration : Rule}
    {text : String} (huse : declaration.property ≠ "@use")
    (htarget : target.any Selector.isHost = false)
    (h : (composeRule kit cell target declaration).perform s = (.ok text, s')) :
    s'.hostGrid = s.hostGrid ∧ s'.composed = s.composed := by
  by_cases hgrid : declaration.property = "@grid"
  · obtain ⟨texts, c, -, -, rfl⟩ := (perform_composeRule_ok kit cell huse).1 h
    rw [gridChanges, if_pos hgrid, htarget]
    simp only [Bool.false_eq_true, if_false, Expansion.applyAll_cons, Expansion.applyAll_nil]
    constructor
    · rw [Expansion.hostGrid_apply _ (by simp) (by simp),
        Expansion.hostGrid_apply _ (by simp) (by simp)]
      rfl
    · rw [Expansion.composed_apply _ (by simp), Expansion.composed_apply _ (by simp)]
      rfl
  · have hsame := perform_composeRule_of_ne huse hgrid h
    exact ⟨hsame.1, hsame.2.2⟩

/-- A grid directive of the host sets the grid that a search takes from it. -/
theorem perform_composeRule_hostGrid {target : String} {declaration : Rule} {text : String}
    (hgrid : declaration.property = "@grid") (htarget : Selector.isHost target = true)
    (hsteady : (groupTexts kit.functions cell declaration.value).Steady)
    (h : (composeRule kit cell (some target) declaration).perform s = (.ok text, s')) :
    ∃ texts, (∀ t, (act (groupTexts kit.functions cell declaration.value)).perform t =
        (.ok texts, t)) ∧ s'.hostGrid = true ∧ s'.composed = s.composed ∧
      s'.grid = some (Directive.readGrid true (String.intercalate ", " texts)).1 := by
  have huse : declaration.property ≠ "@use" := by rw [hgrid]; decide
  obtain ⟨texts, c, hc, -, rfl⟩ := (perform_composeRule_ok kit cell huse).1 h
  have hact := hsteady.perform_act (perform_act_ok.2 ⟨c, hc, rfl⟩)
  refine ⟨texts, hact, ?_⟩
  rw [gridChanges, if_pos hgrid, Option.any_some, htarget, hgrid]
  refine ⟨rfl, ?_, rfl⟩
  exact Expansion.composed_apply _ (by simp)

/-- The rules of a block that is not for the host leave the host's grid alone. -/
theorem perform_expandRules_of_not_isHost {target : String}
    (htarget : Selector.isHost target = false) : ∀ {styles : List Rule} {s s' : Expansion},
    (∀ r ∈ styles, Searchable kit cell (.rule r)) →
    (expandRules kit cell target styles).perform s = (.ok (), s') →
    s'.hostGrid = s.hostGrid ∧ s'.composed = s.composed
  | [], s, s', _, h => by
    rw [expandRules, perform_pure_ok] at h
    rw [h.2]
    exact ⟨rfl, rfl⟩
  | declaration :: rest, s, s', hsearch, h => by
    rw [List.forall_mem_cons] at hsearch
    rw [expandRules, perform_bind_ok] at h
    obtain ⟨text, s₁, hrule, hrest⟩ := h
    rw [perform_modify_bind] at hrest
    have hfirst : s₁.hostGrid = s.hostGrid ∧ s₁.composed = s.composed :=
      perform_composeRule_of_not_isHost hsearch.1.1 (by rw [Option.any_some, htarget]) hrule
    have hlast := perform_expandRules_of_not_isHost htarget hsearch.2 hrest
    exact ⟨hlast.1.trans hfirst.1, hlast.2.trans hfirst.2⟩

/-- Composing the rules of a block for the host sets the grid that a search takes from them. -/
theorem exists_adopt_of_expandRules {target : String} (htarget : Selector.isHost target = true) :
    ∀ {styles : List Rule} {s s' : Expansion},
      (∀ r ∈ styles, Searchable kit cell (.rule r)) →
      (expandRules kit cell target styles).perform s = (.ok (), s') →
      ∃ found, (∀ t, (seekGrids kit cell styles).perform t = (.ok (), t.adopt found)) ∧
        s'.hostGrid = (s.hostGrid || found.isSome) ∧ s'.grid = found.or s.grid ∧
        s'.composed = s.composed
  | [], s, s', _, h => by
    rw [expandRules, perform_pure_ok] at h
    rw [← h.2]
    exact ⟨none, fun t => rfl, by simp, rfl, rfl⟩
  | declaration :: rest, s, s', hsearch, h => by
    rw [List.forall_mem_cons] at hsearch
    rw [expandRules, perform_bind_ok] at h
    obtain ⟨text, s₁, hrule, hrest⟩ := h
    rw [perform_modify_bind] at hrest
    obtain ⟨found, hfound, hhost, hgrid', hcomposed⟩ :=
      exists_adopt_of_expandRules htarget hsearch.2 hrest
    by_cases hgrid : declaration.property = "@grid"
    · obtain ⟨texts, hact, hhost₁, hcomposed₁, hgrid₁⟩ :=
        perform_composeRule_hostGrid hgrid htarget hsearch.1.2 hrule
      -- Of several grids in one block the last one counts, for both.
      refine ⟨found.or (some (Directive.readGrid true (String.intercalate ", " texts)).1),
        fun t => ?_, ?_, ?_, hcomposed.trans hcomposed₁⟩
      · rw [perform_seekGrids_cons hgrid (hact t), hfound, Expansion.adopt_adopt]
      · rw [hhost]
        simp [Expansion.push, hhost₁]
      · rw [hgrid']
        simp [Expansion.push, hgrid₁]
    · obtain ⟨hhost₁, hgrid₁, hcomposed₁⟩ := perform_composeRule_of_ne hsearch.1.1 hgrid hrule
      refine ⟨found, ?_, ?_, ?_, hcomposed.trans hcomposed₁⟩
      · rw [seekGrids_cons_of_ne hgrid]
        exact hfound
      · rw [hhost]
        simp [Expansion.push, hhost₁]
      · rw [hgrid']
        simp [Expansion.push, hgrid₁]

/-- Composing the rules of a block finds what a search finds in the block. -/
theorem exists_finds_of_expandRules {id : Nat} {selector target : String} {styles : List Rule}
    (haddress : addressesHost selector = Selector.isHost target)
    (hstyles : ∀ r ∈ styles, Searchable kit cell (.rule r)) (hhost : s.hostGrid = false)
    (h : (expandRules kit cell target styles).perform s = (.ok (), s')) :
    ∃ found, Finds (seekToken kit cell (.pseudo id selector styles)) found ∧
      Reaches s [] found s' := by
  cases htarget : Selector.isHost target with
  | true =>
    obtain ⟨found, hfound, hhost', hgrid, hcomposed⟩ :=
      exists_adopt_of_expandRules htarget hstyles h
    refine ⟨found, Finds.pseudo (haddress.trans htarget) hfound, ?_, ?_, ?_⟩
    · rw [hhost', hhost, Bool.false_or]
    · rintro size rfl
      exact hgrid
    · rw [hcomposed]
      exact fun _ hi => .inl hi
  | false =>
    obtain ⟨hhost', hcomposed⟩ := perform_expandRules_of_not_isHost htarget hstyles h
    have hnone : ¬ addressesHost selector = true := by
      rw [haddress, htarget]
      decide
    refine ⟨none, Finds.pseudo_none hnone, hhost'.trans hhost, by simp, ?_⟩
    rw [hcomposed]
    exact fun _ hi => .inl hi

/-- Beginning a block composes it, if it is special, and finds nothing. -/
theorem reaches_of_begin (special : Bool) {id : Nat} (hhost : s.hostGrid = false)
    (h : (if special then beginSpecial id else pure ()).perform s = (.ok (), s')) :
    Reaches s [id] none s' := by
  split at h
  · rw [beginSpecial, perform_modify_ok] at h
    rw [← h]
    refine ⟨hhost, by simp, fun i hi => ?_⟩
    rw [List.mem_singleton, or_comm]
    exact List.mem_cons.1 hi
  · rw [perform_pure_ok] at h
    rw [← h.2]
    exact ⟨hhost, by simp, fun i hi => .inl hi⟩

/-- Composing a block finds what a search finds in it. -/
theorem exists_finds_of_expandToken_pseudo {initial : Bool} {id : Nat} {selector : String}
    {styles : List Rule} (hsingle : Selector.IsSingle selector)
    (hstyles : ∀ r ∈ styles, Searchable kit cell (.rule r)) (hhost : s.hostGrid = false)
    (hid : id ∉ s.composed)
    (h : (expandToken kit cell initial (.pseudo id selector styles)).perform s = (.ok (), s')) :
    ∃ found, Finds (seekToken kit cell (.pseudo id selector styles)) found ∧
      Reaches s [id] found s' := by
  rw [perform_expandToken_pseudo, if_neg hid, perform_bind_ok] at h
  obtain ⟨_, s₁, hbegin, hparts⟩ := h
  have hbegun := reaches_of_begin _ hhost hbegin
  have haddress := Selector.addressesHost_of_isSingle hsingle
  rw [Selector.selectorParts_of_isSingle hsingle.normalize] at hparts
  split at hparts
  · next hempty =>
    -- An empty selector has no parts.
    rw [String.isEmpty_iff] at hempty
    rw [perform_forM_nil_ok] at hparts
    have hnone : ¬ addressesHost selector = true := by
      rw [haddress, hempty]
      decide
    exact ⟨none, Finds.pseudo_none hnone, hparts ▸ hbegun⟩
  · rw [perform_forM_cons, perform_bind_ok] at hparts
    obtain ⟨_, s₂, hrules, hdone⟩ := hparts
    rw [perform_forM_nil_ok] at hdone
    have htarget := haddress.trans (Selector.isHost_partSelector_normalize cell selector).symm
    obtain ⟨found, hfound, hreach⟩ :=
      exists_finds_of_expandRules htarget hstyles hbegun.hostGrid hrules
    exact ⟨found, hfound, hdone ▸ hbegun.trans hreach⟩

/-- Walking a rule leaves the host's grid and the composed blocks alone. -/
theorem reaches_of_expandToken_rule {initial : Bool} {declaration : Rule}
    (huse : declaration.property ≠ "@use") (hhost : s.hostGrid = false)
    (h : (expandToken kit cell initial (.rule declaration)).perform s = (.ok (), s')) :
    Reaches s [] none s' := by
  rw [expandToken, perform_bind_ok] at h
  obtain ⟨text, s₁, hrule, hpush⟩ := h
  rw [perform_modify_ok] at hpush
  obtain ⟨hhost₁, hcomposed₁⟩ := perform_composeRule_of_not_isHost huse
    (by rw [Option.any_some, Selector.isHost_ofCell]) hrule
  rw [← hpush]
  refine ⟨?_, by simp, fun id hid => .inl ?_⟩
  · rw [Option.isSome_none, ← hhost, ← hhost₁]
    rfl
  · rw [← hcomposed₁]
    exact hid

mutual

/-- What an initial walk finds is what a search of the same tokens finds, if none of the blocks
is composed yet. -/
theorem exists_finds_of_expandTokens : ∀ {tokens : List Token} {s s' : Expansion},
    (∀ t ∈ Token.within tokens, Searchable kit cell t) → (Token.ids tokens).Nodup →
    (∀ id ∈ Token.ids tokens, id ∉ s.composed) → s.hostGrid = false →
    (expandTokens kit cell true tokens).perform s = (.ok (), s') →
    ∃ found, Finds (seekHostGrid kit cell tokens) found ∧ Reaches s (Token.ids tokens) found s'
  | [], s, s', _, _, _, hhost, h => by
    rw [expandTokens, perform_pure_ok] at h
    rw [← h.2]
    exact ⟨none, fun t _ => by rw [seekHostGrid]; rfl, Reaches.refl hhost _⟩
  | token :: rest, s, s', hsearch, hnodup, hfresh, hhost, h => by
    by_cases hgrid : s.grid.isSome
    · -- The walk is a search from here on.
      rw [perform_expandTokens_of_grid _ hhost hgrid] at h
      obtain ⟨found, hfound⟩ := exists_finds_of_seekHostGrid hsearch hhost h
      rw [hfound s hhost, Prod.mk.injEq] at h
      rw [← h.2]
      exact ⟨found, hfound, Reaches.adopt hhost _ found⟩
    · rw [perform_expandTokens_cons kit cell fun hknown => hgrid hknown.2, perform_bind_ok] at h
      obtain ⟨_, s₁, htoken, hrest⟩ := h
      rw [Token.forall_within_cons] at hsearch
      rw [Token.ids_cons, List.nodup_append] at hnodup
      rw [Token.ids_cons] at hfresh ⊢
      simp only [List.mem_append, or_imp, forall_and] at hfresh
      obtain ⟨first, hfirst, hreach⟩ := exists_finds_of_expandToken hsearch.1 hsearch.2.1
        hnodup.1 hfresh.1 hhost htoken
      cases first with
      | some size =>
        -- With the host's grid the walk is over.
        have hdone : (expandTokens kit cell true rest).perform s₁ = (.ok (), s₁) :=
          perform_expandTokens_of_hostGrid rest hreach.hostGrid (by rw [hreach.grid size rfl]; rfl)
        rw [hdone, Prod.mk.injEq] at hrest
        rw [← hrest.2]
        have hfinds : Finds (seekHostGrid kit cell (token :: rest)) ((some size).or none) :=
          hfirst.cons fun hnone => absurd hnone (Option.some_ne_none size)
        exact ⟨_, hfinds, hreach.mono (List.subset_append_left _ _)⟩
      | none =>
        -- The blocks of the first token are none of those that follow.
        have hfresh₁ : ∀ id ∈ Token.ids rest, id ∉ s₁.composed := by
          intro id hid hmem
          obtain hold | hnew := hreach.composed id hmem
          · exact hfresh.2 id hid hold
          · exact hnodup.2.2 id hnew id hid rfl
        obtain ⟨second, hsecond, hreach'⟩ := exists_finds_of_expandTokens hsearch.2.2
          hnodup.2.1 hfresh₁ hreach.hostGrid hrest
        exact ⟨_, hfirst.cons fun _ => hsecond, hreach.trans hreach'⟩

/-- What the walk of one token finds is what a search in it finds. -/
theorem exists_finds_of_expandToken : ∀ {token : Token} {s s' : Expansion},
    Searchable kit cell token → (∀ t ∈ token.inside, Searchable kit cell t) →
    token.ownIds.Nodup → (∀ id ∈ token.ownIds, id ∉ s.composed) → s.hostGrid = false →
    (expandToken kit cell true token).perform s = (.ok (), s') →
    ∃ found, Finds (seekToken kit cell token) found ∧ Reaches s token.ownIds found s'
  | .rule declaration, s, s', hrule, _, _, _, hhost, h =>
    ⟨none, Finds.rule declaration,
      (reaches_of_expandToken_rule hrule.1 hhost h).mono (List.nil_subset _)⟩
  | .keyframes name steps, s, s', _, _, _, _, hhost, h => by
    rw [expandToken, perform_modify_ok] at h
    rw [← h]
    exact ⟨none, Finds.keyframes name steps, hhost, by simp, fun id hid => .inl hid⟩
  | .pseudo id selector styles, s, s', hsingle, hin, _, hfresh, hhost, h => by
    have hmem : id ∈ (Token.pseudo id selector styles).ownIds := List.mem_cons_self
    obtain ⟨found, hfound, hreach⟩ := exists_finds_of_expandToken_pseudo hsingle
      (Token.forall_rules_of_forall_withinRules hin) hhost (hfresh id hmem) h
    exact ⟨found, hfound, hreach.mono (List.cons_subset.2 ⟨hmem, List.nil_subset _⟩)⟩
  | .condition name arguments styles, s, s', hsteady, hin, hnodup, hfresh, hhost, h => by
    rw [expandToken, perform_bind_ok] at h
    obtain ⟨b, s₁, hholds, hstyles⟩ := h
    -- A steady condition changes nothing.
    obtain rfl : s = s₁ := by
      rw [hsteady.perform_act hholds, Prod.mk.injEq] at hholds
      exact hholds.2
    cases b with
    | false =>
      rw [if_neg Bool.false_ne_true, perform_pure_ok] at hstyles
      rw [← hstyles.2]
      exact ⟨none, Finds.condition_false hsteady hholds, Reaches.refl hhost _⟩
    | true =>
      obtain ⟨found, hfound, hreach⟩ :=
        exists_finds_of_expandTokens hin hnodup hfresh hhost hstyles
      exact ⟨found, Finds.condition_true hsteady hholds hfound, hreach⟩

end

end Search

/-- A tree of single selectors that includes nothing can be searched in any cell, if no function
and no predicate is affected by the shared context. -/
theorem searchable_of_steady {kit : Toolkit} (hkit : kit.Steady) (cell : Cell)
    {tokens : List Token}
    (huse : ∀ declaration, .rule declaration ∈ Token.within tokens →
      declaration.property ≠ "@use")
    (hsingle : ∀ id selector styles, .pseudo id selector styles ∈ Token.within tokens →
      Selector.IsSingle selector) :
    ∀ t ∈ Token.within tokens, Searchable kit cell t := by
  intro t ht
  cases t with
  | rule declaration => exact ⟨huse declaration ht, hkit.steady_groupTexts cell _⟩
  | pseudo id selector styles => exact hsingle id selector styles ht
  | condition name arguments styles => exact hkit.steady_holds cell name arguments
  | keyframes name steps => trivial

/-- The grid of the host that an initial walk ends with is also found after a grid directive of a
cell, although nothing is composed then: the walk with the directive `@grid: text` in front does
what the directive does, and besides takes over the host's grid if there is one. The blocks of the
tree have different identities, as numbering gives them. -/
theorem hostGrid_after_cellGrid {kit : Toolkit} (hkit : kit.Steady) {tokens : List Token}
    (huse : ∀ declaration, .rule declaration ∈ Token.within tokens →
      declaration.property ≠ "@use")
    (hsingle : ∀ id selector styles, .pseudo id selector styles ∈ Token.within tokens →
      Selector.IsSingle selector)
    (hids : (Token.ids tokens).Nodup) (text : String) {seed : UInt64} {s : Expansion}
    (h : (expandCell kit true tokens Cell.discovery).perform (.ofSeed seed) = (.ok (), s)) :
    ∃ r t,
      (expandCell kit true [.rule (.ofText "@grid" text)] Cell.discovery).perform
        (.ofSeed seed) = (.ok (), r) ∧
      (expandCell kit true (.rule (.ofText "@grid" text) :: tokens) Cell.discovery).perform
        (.ofSeed seed) = (.ok (), t) ∧
      r.grid = some (Directive.readGrid true text).1 ∧
      (s.hostGrid = true → ∃ size, s.grid = some size ∧ t.grid = some size ∧
        t.hostGrid = true) ∧
      (s.hostGrid = false → t.grid = r.grid ∧ t.hostGrid = false) ∧
      t.rules = r.rules ∧ t.keyframes = r.keyframes ∧ t.composed = r.composed ∧
      t.features = r.features := by
  obtain ⟨start, hstart⟩ : ∃ start, start = (Expansion.ofSeed seed).enter true Cell.discovery :=
    ⟨_, rfl⟩
  simp only [Expanding.perform_expandCell, ← hstart] at h ⊢
  have hfresh : ∀ id ∈ Token.ids tokens, id ∉ start.composed := by
    rw [hstart]
    exact fun id _ => List.not_mem_nil
  have hunknown : ¬ (true = true ∧ start.grid.isSome) := by
    rw [hstart]
    rintro ⟨-, hsome⟩
    exact Bool.false_ne_true hsome
  obtain ⟨found, hfinds, hreach⟩ := exists_finds_of_expandTokens
    (searchable_of_steady hkit Cell.discovery huse hsingle) hids hfresh (by rw [hstart]; rfl) h
  -- The state that the directive leaves.
  obtain ⟨r, hr⟩ : ∃ r, r = start.setCellGrid (Directive.readGrid true text).1
      (Directive.readGrid true text).2 := ⟨_, rfl⟩
  have hgrid : r.grid = some (Directive.readGrid true text).1 := by rw [hr, hstart]; rfl
  have hhost : r.hostGrid = false := by rw [hr, hstart]; rfl
  refine ⟨r, r.adopt found, ?_, ?_, hgrid, fun hs => ?_, fun hs => ?_, ?_⟩
  · rw [Expanding.perform_expandTokens_cons _ _ hunknown, Expanding.perform_bind,
      Expanding.perform_expandToken_gridText, ← hr, expandTokens]
    rfl
  · rw [Expanding.perform_expandTokens_cons _ _ hunknown, Expanding.perform_bind,
      Expanding.perform_expandToken_gridText, ← hr]
    change (expandTokens kit Cell.discovery true tokens).perform r = _
    rw [perform_expandTokens_of_grid tokens hhost (by rw [hgrid]; rfl)]
    exact hfinds r hhost
  · rw [hreach.hostGrid, Option.isSome_iff_exists] at hs
    obtain ⟨size, rfl⟩ := hs
    exact ⟨size, hreach.grid size rfl, rfl, rfl⟩
  · rw [hreach.hostGrid, Option.isSome_eq_false_iff, Option.isNone_iff_eq_none] at hs
    subst hs
    exact ⟨rfl, hhost⟩
  · cases found <;> exact ⟨rfl, rfl, rfl, rfl⟩

/-- A grid of the host under a condition, before a rule of the cells. -/
def conditionalHostGrid : List Token :=
  [.condition "@odd" [] [.pseudo 0 ":doodle" [.ofText "@grid" "2x1"]],
    .rule (.ofText "color" "red")]

/-- The host's grid is found behind the condition, with a grid directive in front and without. -/
theorem hostGrid_after_cellGrid_conditional :
    ∃ s r t, (expandCell .odd true conditionalHostGrid Cell.discovery).perform (.ofSeed 1) =
        (.ok (), s) ∧ s.hostGrid = true ∧
      (expandCell .odd true [.rule (.ofText "@grid" "5")] Cell.discovery).perform (.ofSeed 1) =
        (.ok (), r) ∧
      (expandCell .odd true (.rule (.ofText "@grid" "5") :: conditionalHostGrid)
        Cell.discovery).perform (.ofSeed 1) = (.ok (), t) ∧
      s.grid = t.grid ∧ t.hostGrid = true ∧ t.rules = r.rules := by
  have huse : ∀ declaration, .rule declaration ∈ Token.within conditionalHostGrid →
      declaration.property ≠ "@use" := by
    simp [conditionalHostGrid, Token.within, Token.inside, Token.insideRule, Token.withinRules,
      RuleOf.ofText]
  have hsingle : ∀ id selector styles,
      .pseudo id selector styles ∈ Token.within conditionalHostGrid →
        Selector.IsSingle selector := by
    simp only [conditionalHostGrid, Token.within, Token.inside, Token.insideRule,
      Token.withinRules, RuleOf.ofText]
    intro id selector styles hmem
    have hselector : selector = ":doodle" := by simp_all
    rw [hselector]
    decide
  have hids : (Token.ids conditionalHostGrid).Nodup := by
    have heq : Token.ids conditionalHostGrid = [0] := rfl
    rw [heq]
    decide
  have hok : ((expandCell .odd true conditionalHostGrid Cell.discovery).perform (.ofSeed 1)).1 =
      .ok () := rfl
  have hhost : ((expandCell .odd true conditionalHostGrid Cell.discovery).perform
      (.ofSeed 1)).2.hostGrid = true := rfl
  obtain ⟨r, t, hr, ht, -, hfound, -, hrules, -⟩ :=
    hostGrid_after_cellGrid Toolkit.steady_odd huse hsingle hids "5" (Prod.ext hok rfl)
  obtain ⟨size, hs, ht', hhost'⟩ := hfound hhost
  exact ⟨_, r, t, Prod.ext hok rfl, hhost, hr, ht, hs.trans ht'.symm, hhost', hrules⟩

end GridStyle
