import GridStyle.Proofs.Expansion.Step
import GridStyle.Proofs.TokenTree

/-!
# The Search for a Grid of the Host

Once a grid is known, the initial walk goes on as a search for a grid of the host, or not at all if
the grid is that of the host. A search takes over the last grid of the first block for the host
that sets one, and changes nothing else but the shared context (`exists_adopt_of_seekHostGrid`).
Where no rule sets a grid it takes over none.
-/

namespace GridStyle

/-- Take over the grid of the host that a search found. -/
def Expansion.adopt (s : Expansion) : Option GridSize → Expansion
  | none => s
  | some size => { s with grid := some size, hostGrid := true }

namespace Expansion

@[simp]
theorem hostGrid_adopt (s : Expansion) (found : Option GridSize) :
    (s.adopt found).hostGrid = (s.hostGrid || found.isSome) := by
  cases found <;> simp [adopt]

/-- The shared context does not matter for what is taken over. -/
theorem adopt_withContext (s : Expansion) (found : Option GridSize) (c : Context) :
    (s.adopt found).withContext c = (s.withContext c).adopt found := by
  cases found <;> rfl

/-- Of two grids that are taken over the later one counts. -/
theorem adopt_adopt (s : Expansion) (first second : Option GridSize) :
    (s.adopt first).adopt second = s.adopt (second.or first) := by
  cases second <;> cases first <;> rfl

end Expansion

section Search

variable {kit : Toolkit} {cell : Cell} {s s' : Expansion}

open Expanding

/-- Once the grid of the host is known a search does nothing. -/
theorem perform_seekHostGrid_of_hostGrid (tokens : List Token) {t : Expansion}
    (h : t.hostGrid = true) : (seekHostGrid kit cell tokens).perform t = (.ok (), t) := by
  cases tokens with
  | nil => rw [seekHostGrid]; rfl
  | cons token rest => rw [perform_seekHostGrid_cons, if_pos h]

/-- Once the grid of the host is known an initial walk does nothing. -/
theorem perform_expandTokens_of_hostGrid (tokens : List Token) {t : Expansion}
    (hhost : t.hostGrid = true) (hgrid : t.grid.isSome) :
    (expandTokens kit cell true tokens).perform t = (.ok (), t) := by
  cases tokens with
  | nil => rw [expandTokens]; rfl
  | cons token rest => rw [perform_expandTokens_known kit cell ⟨rfl, hgrid⟩, if_pos hhost]

/-- Once the grid of a cell is known an initial walk is a search. -/
theorem perform_expandTokens_of_grid (tokens : List Token) {t : Expansion}
    (hhost : t.hostGrid = false) (hgrid : t.grid.isSome) :
    (expandTokens kit cell true tokens).perform t = (seekHostGrid kit cell tokens).perform t := by
  cases tokens with
  | nil => rw [expandTokens, seekHostGrid]
  | cons token rest =>
    rw [perform_expandTokens_known kit cell ⟨rfl, hgrid⟩, if_neg (by rw [hhost]; decide)]

/-- The search in a rule that sets a grid, before those after it. -/
theorem perform_seekGrids_cons {declaration : Rule} {rest : List Rule} {texts : List String}
    (hgrid : declaration.property = "@grid")
    (hact : (act (groupTexts kit.functions cell declaration.value)).perform s = (.ok texts, s')) :
    (seekGrids kit cell (declaration :: rest)).perform s =
      (seekGrids kit cell rest).perform
        (s'.adopt (some (Directive.readGrid true (String.intercalate ", " texts)).1)) := by
  rw [seekGrids, if_pos ((PropertyKind.ofName_eq_grid_iff _).2 hgrid), perform_bind, hact]
  rfl

/-- The search passes over rules that set no grid. -/
theorem seekGrids_cons_of_ne {declaration : Rule} {rest : List Rule}
    (hgrid : declaration.property ≠ "@grid") :
    seekGrids kit cell (declaration :: rest) = seekGrids kit cell rest := by
  rw [seekGrids, if_neg fun hkind => hgrid ((PropertyKind.ofName_eq_grid_iff _).1 hkind)]

/-- A search in the rules of a block changes the shared context and takes over a grid. -/
theorem exists_adopt_of_seekGrids : ∀ {styles : List Rule} {s s' : Expansion},
    (seekGrids kit cell styles).perform s = (.ok (), s') →
    ∃ c found, s' = (s.withContext c).adopt found ∧
      ((∀ r ∈ styles, r.property ≠ "@grid") → found = none)
  | [], s, s', h => by
    rw [seekGrids, perform_pure_ok] at h
    exact ⟨s.context, none, h.2.symm, fun _ => rfl⟩
  | declaration :: rest, s, s', h => by
    by_cases hgrid : declaration.property = "@grid"
    · have h' := h
      rw [seekGrids, if_pos ((PropertyKind.ofName_eq_grid_iff _).2 hgrid), perform_bind_ok] at h'
      obtain ⟨texts, s₁, hact, -⟩ := h'
      rw [perform_seekGrids_cons hgrid hact] at h
      obtain ⟨c₁, -, rfl⟩ := perform_act_ok.1 hact
      -- A later rule that sets a grid counts more than this one.
      obtain ⟨c, found, rfl, -⟩ := exists_adopt_of_seekGrids h
      refine ⟨c, found.or (some (Directive.readGrid true (String.intercalate ", " texts)).1), ?_,
        fun hne => absurd hgrid (hne declaration List.mem_cons_self)⟩
      rw [Expansion.adopt_withContext, Expansion.adopt_adopt]
      rfl
    · rw [seekGrids_cons_of_ne hgrid] at h
      obtain ⟨c, found, hs', hnone⟩ := exists_adopt_of_seekGrids h
      exact ⟨c, found, hs', fun hne => hnone fun r hr => hne r (List.mem_cons_of_mem _ hr)⟩

end Search

/-- The token is no grid directive. -/
def Token.SetsNoGrid (token : Token) : Prop :=
  ∀ declaration, token = .rule declaration → declaration.property ≠ "@grid"

instance : DecidablePred Token.SetsNoGrid
  | .rule declaration =>
    decidable_of_iff (declaration.property ≠ "@grid")
      ⟨fun h _ heq => Token.rule.inj heq ▸ h, fun h => h declaration rfl⟩
  | .pseudo _ _ _ => isTrue fun _ h => Token.noConfusion h
  | .condition _ _ _ => isTrue fun _ h => Token.noConfusion h
  | .keyframes _ _ => isTrue fun _ h => Token.noConfusion h

section Search

variable {kit : Toolkit} {cell : Cell}

open Expanding

mutual

/-- A search changes the shared context and takes over a grid, which some rule has set. -/
theorem exists_adopt_of_seekHostGrid : ∀ {tokens : List Token} {s s' : Expansion},
    (seekHostGrid kit cell tokens).perform s = (.ok (), s') →
    ∃ c found, s' = (s.withContext c).adopt found ∧
      ((∀ t ∈ Token.within tokens, t.SetsNoGrid) → found = none)
  | [], s, s', h => by
    rw [seekHostGrid, perform_pure_ok] at h
    exact ⟨s.context, none, h.2.symm, fun _ => rfl⟩
  | token :: rest, s, s', h => by
    rw [perform_seekHostGrid_cons] at h
    split at h
    · rw [Prod.mk.injEq] at h
      exact ⟨s.context, none, h.2.symm, fun _ => rfl⟩
    · rw [perform_bind_ok] at h
      obtain ⟨_, s₁, htoken, hrest⟩ := h
      obtain ⟨c₁, first, rfl, hfirst⟩ := exists_adopt_of_seekToken htoken
      obtain ⟨c, second, rfl, hsecond⟩ := exists_adopt_of_seekHostGrid hrest
      refine ⟨c, second.or first, ?_, fun hno => ?_⟩
      · rw [Expansion.adopt_withContext, Expansion.adopt_adopt]
        rfl
      · rw [Token.forall_within_cons] at hno
        rw [hfirst hno.2.1, hsecond hno.2.2]
        rfl

/-- A search in one token changes the shared context and takes over a grid, which some rule has
set. -/
theorem exists_adopt_of_seekToken : ∀ {token : Token} ⦃s s' : Expansion⦄,
    (seekToken kit cell token).perform s = (.ok (), s') →
    ∃ c found, s' = (s.withContext c).adopt found ∧
      ((∀ t ∈ token.inside, t.SetsNoGrid) → found = none)
  | .rule declaration => by
    intro s s' h
    rw [seekToken, perform_pure_ok] at h
    exact ⟨s.context, none, h.2.symm, fun _ => rfl⟩
  | .keyframes name steps => by
    intro s s' h
    rw [seekToken, perform_pure_ok] at h
    exact ⟨s.context, none, h.2.symm, fun _ => rfl⟩
  | .pseudo id selector styles => by
    intro s s' h
    rw [seekToken] at h
    -- Only a block for the host is searched.
    split at h
    · obtain ⟨c, found, hs', hnone⟩ := exists_adopt_of_seekGrids h
      refine ⟨c, found, hs', fun hno => hnone fun r hr => ?_⟩
      exact Token.forall_rules_of_forall_withinRules hno r hr r rfl
    · rw [perform_pure_ok] at h
      exact ⟨s.context, none, h.2.symm, fun _ => rfl⟩
  | .condition name arguments styles => by
    intro s s' h
    rw [seekToken, perform_bind_ok] at h
    obtain ⟨b, s₁, hholds, hstyles⟩ := h
    obtain ⟨c₁, -, rfl⟩ := perform_act_ok.1 hholds
    cases b with
    | false =>
      rw [if_neg Bool.false_ne_true, perform_pure_ok] at hstyles
      exact ⟨c₁, none, hstyles.2.symm, fun _ => rfl⟩
    | true =>
      obtain ⟨c, found, rfl, hnone⟩ := exists_adopt_of_seekHostGrid hstyles
      exact ⟨c, found, rfl, hnone⟩

end

end Search

end GridStyle
