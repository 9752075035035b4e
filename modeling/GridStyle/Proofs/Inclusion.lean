import GridStyle.Proofs.Exchange
import GridStyle.Proofs.PlainValue

/-!
# Inclusions Stand for Their Tokens

Where tokens are walked, a rule `@use` whose value calls no function does what its tokens would do
in its place (`perform_expandTokens_inclusion`). So it can be replaced by them, with the same
stylesheet or the same error (`generate_inlined`).

The search of the first pass for a grid of the host is different. It does not look into inclusions,
although it looks into conditions. Where the search comes to the rule, the tokens have to be such
that the search finds nothing in them: with a grid of the host in an inclusion behind the grid of a
cell it makes a difference whether the tokens are included or written out (`hidden_hostGrid`).
-/

namespace GridStyle

section Inclusion

variable {kit : Toolkit} {cell : Cell} {initial : Bool} {declaration : Rule} {s : Expansion}

open Expanding

/-- A plain inclusion is composed by a walk over its tokens. -/
theorem perform_composeRule_inclusion (selector : Option String)
    (huse : declaration.property = "@use") (hplain : IsPlain declaration.value)
    (hinitial : s.discovering = initial) :
    (composeRule kit cell selector declaration).perform s =
      (expandTokens kit cell initial declaration.styles >>= fun _ => pure "").perform s := by
  obtain ⟨texts, htexts⟩ := exists_settles_groupTexts kit.functions cell hplain
  rw [composeRule_inclusion kit cell selector huse, htexts.act_eq_pure, pure_bind,
    perform_get_bind, hinitial]

/-- A walk over a plain inclusion is one over its tokens. -/
theorem perform_expandTokens_inclusion (huse : declaration.property = "@use")
    (hplain : IsPlain declaration.value) (hinitial : s.discovering = initial)
    (hunknown : ¬ (initial = true ∧ s.grid.isSome)) :
    (expandTokens kit cell initial [.rule declaration]).perform s =
      (expandTokens kit cell initial declaration.styles).perform s := by
  rw [perform_expandTokens_cons kit cell hunknown, expandToken, expandTokens, bind_assoc,
    perform_bind, perform_composeRule_inclusion _ huse hplain hinitial, perform_bind]
  rcases (expandTokens kit cell initial declaration.styles).perform s with ⟨outcome, s'⟩
  cases outcome <;> rfl

/-- A plain inclusion can be exchanged for its tokens, unless a search in them would do something
where the search of the first pass comes to the inclusion. -/
theorem exchange_inclusion (kit : Toolkit) (cell : Cell) (initial : Bool)
    (huse : declaration.property = "@use") (hplain : IsPlain declaration.value) :
    Exchange kit cell initial false (fun _ => True)
      (fun a => initial = true → ∀ s, a = .searches s →
        (seekHostGrid kit cell declaration.styles).perform s = (.ok (), s))
      (.rule declaration) ⟨declaration.styles, [declaration]⟩ := by
  refine ⟨fun hR hunknown _ => ?_, fun {s t} hR hinitial hgrid hidle => ?_,
    fun hR _ part hpart _ => ?_, fun hR _ _ => ?_⟩
  · unfold InStep
    rw [Filling.rule, perform_expandTokens_inclusion huse hplain hR.1 hunknown]
    exact AgreeIn.coupling.inStep_expandTokens declaration.styles (fun _ _ => trivial) hR
  · obtain rfl : initial = true := hinitial
    have hpass : (seekHostGrid kit cell [.rule declaration]).perform s = (.ok (), s) := by
      rw [perform_seekHostGrid_cons, seekToken, seekHostGrid]
      split <;> rfl
    -- Neither search does anything.
    have hsame : InStep _ (seekHostGrid kit cell declaration.styles) s
        (seekHostGrid kit cell declaration.styles) t :=
      AgreeIn.coupling.inStep_seekHostGrid declaration.styles (fun _ _ => trivial) hR
    unfold InStep at hsame ⊢
    rw [hidle rfl s rfl] at hsame
    rw [Filling.rule, hpass]
    exact hsame
  · exact AgreeIn.coupling.inStep_expandRules _ (fun _ _ => trivial) _
      (fun text => .inr ⟨0, _, [], trivial, part, hpart, rfl⟩) hR
  · exact AgreeIn.coupling.inStep_seekGrids _ (fun _ _ => trivial) hR

/-- Inclusion is inlining. A rule `@use` whose value calls no function can be replaced by its tokens
wherever it stands among tokens: the stylesheet is the same, or the error. Only where the search of
the first pass comes to the rule, a search in its tokens must not do anything. -/
theorem generate_inlined (kit : Toolkit) (seed : UInt64) (p : Place) (declaration : Rule)
    (huse : declaration.property = "@use") (hplain : IsPlain declaration.value)
    (hsearch : ∀ s, .searches s ∈ p.firstArrivals (.rule declaration) kit seed →
      (seekHostGrid kit Cell.discovery declaration.styles).perform s = (.ok (), s))
    (default : GridSize) :
    generate kit seed (p.fill (.rule declaration)) default =
      generate kit seed (p.fill ⟨declaration.styles, [declaration]⟩) default := by
  refine generate_exchange (fun _ _ => trivial)
    (exchange_inclusion kit Cell.discovery true huse hplain) (fun a ha _ s hs => ?_)
    (fun cell => ?_) (fun cell s t hR => inStep_ruleTexts_same [declaration] hR)
    (fun h => Bool.noConfusion (h : false = true)) default
  · exact hsearch s (hs ▸ ha)
  · exact (exchange_inclusion kit cell false huse hplain).of_imp fun _ _ h => Bool.noConfusion h

end Inclusion

/-- A rule that includes a grid of the host. -/
def hostInclusion : Rule :=
  ⟨"@use", [[.text "var(--r)"]], [.pseudo 0 ":host" [.ofText "@grid" "2x1"]]⟩

/-- A rule that includes a color for cells. -/
def hoverInclusion : Rule :=
  ⟨"@use", [[.text "var(--r)"]], [.pseudo 0 ":hover" [.ofText "color" "red"]]⟩

/-- A place in a condition in front of a grid. -/
def beforeGrid : Place :=
  .inside [] (.condition "@odd" [] (.here [] [.rule (.ofText "color" "blue")]))
    [.rule (.ofText "@grid" "3x1")]

/-- A place behind a grid. -/
def behindGrid : Place := .here [.rule (.ofText "@grid" "3x1")] []

/-- A grid of the host can be included in front of a grid, and a color also behind it. -/
theorem generate_inlined_examples :
    generate .builtin 1 (beforeGrid.fill (.rule hostInclusion)) {} =
      generate .builtin 1 (beforeGrid.fill ⟨hostInclusion.styles, [hostInclusion]⟩) {} ∧
    generate .builtin 1 (behindGrid.fill (.rule hoverInclusion)) {} =
      generate .builtin 1 (behindGrid.fill ⟨hoverInclusion.styles, [hoverInclusion]⟩) {} := by
  have hplain : IsPlain [[.text "var(--r)"]] := by simp [IsPlain]
  refine ⟨generate_inlined _ _ beforeGrid hostInclusion rfl hplain (fun s hs => ?_) {},
    generate_inlined _ _ behindGrid hoverInclusion rfl hplain (fun s _ => ?_) {}⟩
  · -- No search comes to a place in front of all grids.
    have hnone : (beforeGrid.firstArrivals (.rule hostInclusion) .builtin 1).all
        (!·.isSearch) = true := by decide +kernel
    exact absurd (List.all_eq_true.1 hnone _ hs) (by simp [Arrival.isSearch])
  · rw [hoverInclusion, Expanding.perform_seekHostGrid_cons, seekToken, seekHostGrid,
      if_neg (show ¬ addressesHost ":hover" = true by decide)]
    split <;> rfl

/-- Behind the grid of a cell the first pass does not find a grid of the host in an inclusion. If
the tokens are written out, it finds the grid. -/
theorem hidden_hostGrid :
    ∃ included inlined,
      generate .builtin 1 (behindGrid.fill (.rule hostInclusion)) {} = .ok included ∧
      generate .builtin 1 (behindGrid.fill ⟨hostInclusion.styles, [hostInclusion]⟩) {} =
        .ok inlined ∧
      included.grid = ⟨3, 1, 1⟩ ∧ inlined.grid = ⟨2, 1, 1⟩ := by
  obtain ⟨included, hincluded⟩ := exists_generate_eq
    (show (generate .builtin 1 (behindGrid.fill (.rule hostInclusion)) {}).isOk = true by
      decide +kernel)
  obtain ⟨inlined, hinlined⟩ := exists_generate_eq
    (show (generate .builtin 1 (behindGrid.fill ⟨hostInclusion.styles, [hostInclusion]⟩)
      {}).isOk = true by decide +kernel)
  refine ⟨included, inlined, hincluded, hinlined, ?_, ?_⟩
  · rw [(generate_passes hincluded).2.2.1]
    decide +kernel
  · rw [(generate_passes hinlined).2.2.1]
    decide +kernel

end GridStyle
