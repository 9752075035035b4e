import GridStyle.Proofs.Expansion.Events

/-!
# Laws of Events

What holds of the events of every single rule, and of two stretches of a walk if it holds of each,
holds of the events of a whole walk (`EventLaw.expandTokens`). Steps that only use the shared
context, begin a block or define keyframes have no events.
-/

namespace GridStyle

open Expanding

variable {kit : Toolkit} {cell : Cell} {admitted : Token → Prop} {composed : String → Rule → Prop}
  {Q : List Event → Expansion → Expansion → Prop}

/-- A relation of two states and the events between them, for walks over admitted tokens that
compose certain rules for certain selectors. -/
structure EventLaw (kit : Toolkit) (cell : Cell) (admitted : Token → Prop)
    (composed : String → Rule → Prop) (Q : List Event → Expansion → Expansion → Prop) : Prop where
  /-- Two stretches make one. -/
  trans : ∀ {es es' s s₁ s'}, Q es s s₁ → Q es' s₁ s' → Q (es ++ es') s s'
  /-- Nothing happens while the declarations, the grid and the composed blocks stay. -/
  silent : ∀ {s s'}, s'.rules = s.rules → s'.gridDefined = s.gridDefined →
    s'.hostGrid = s.hostGrid → s'.grid = s.grid → s'.composed = s.composed → Q [] s s'
  /-- A special block begins. -/
  begins : ∀ id list styles s, admitted (.pseudo id list styles) → Q [] s (s.apply (.begin id))
  /-- Nothing happens in a search. -/
  searched : ∀ {tokens s s'}, (∀ t ∈ Token.within tokens, admitted t) →
    (seekHostGrid kit cell tokens).perform s = (.ok (), s') → Q [] s s'
  /-- A rule that includes nothing. -/
  rule : ∀ {selector declaration s s'}, composed selector declaration →
    declaration.property ≠ "@use" →
    (declareRule kit cell selector declaration).perform s = (.ok (), s') →
    Q (ruleEvents kit cell selector declaration s) s s'
  /-- Rules among tokens are composed for the cell. -/
  own : ∀ declaration, composed (Selector.ofCell cell "") declaration
  /-- Rules of a block are composed for its parts. -/
  block : ∀ {id list styles}, admitted (.pseudo id list styles) →
    ∀ part ∈ selectorParts (Selector.normalize list), ∀ declaration ∈ styles,
      composed (partSelector cell (Selector.isSpecial (Selector.normalize list)) part) declaration

theorem expandToken_rule (initial : Bool) (declaration : Rule) :
    expandToken kit cell initial (.rule declaration) =
      declareRule kit cell (Selector.ofCell cell "") declaration := by
  rw [expandToken, declareRule]

theorem expandRules_cons (selector : String) (declaration : Rule) (rest : List Rule) :
    expandRules kit cell selector (declaration :: rest) =
      declareRule kit cell selector declaration >>= fun _ =>
        expandRules kit cell selector rest := by
  rw [expandRules, declareRule, bind_assoc]

theorem tokenEvents_rule (initial : Bool) (declaration : Rule) (s : Expansion) :
    tokenEvents kit cell initial (.rule declaration) s =
      ruleEvents kit cell (Selector.ofCell cell "") declaration s := by
  rw [tokenEvents]

/-- A rule that includes nothing is an event of its own. -/
theorem ruleEvents_of_ne {selector : String} {declaration : Rule} {s : Expansion}
    {texts : List String} {c : Context} (huse : declaration.property ≠ "@use")
    (hc : (groupTexts kit.functions cell declaration.value).perform s.context = (.ok texts, c)) :
    ruleEvents kit cell selector declaration s =
      [ruleEvent kit cell selector declaration.property texts] := by
  obtain ⟨property, value, styles⟩ := declaration
  rw [ruleEvents, perform_act_ok.2 ⟨c, hc, rfl⟩]
  exact if_neg huse

namespace EventLaw

variable {s s₁ s' : Expansion} {es : List Event}

theorem refl (h : EventLaw kit cell admitted composed Q) (s : Expansion) : Q [] s s :=
  h.silent rfl rfl rfl rfl rfl

/-- What happens after steps without events. -/
theorem after (h : EventLaw kit cell admitted composed Q) (hrest : Q es s₁ s')
    (hsilent : Q [] s s₁) : Q es s s' := h.trans hsilent hrest

theorem act (h : EventLaw kit cell admitted composed Q) {α : Type} {action : Action α} {a : α}
    (hact : (act action).perform s = (.ok a, s')) : Q [] s s' := by
  obtain ⟨c, -, rfl⟩ := perform_act_ok.1 hact
  exact h.silent rfl rfl rfl rfl rfl

/-- Steps for the elements of a list, one after the other. -/
theorem stages (h : EventLaw kit cell admitted composed Q) {α : Type}
    {happens : α → Expansion → List Event} {step : α → Expanding Unit} {as : List α}
    (hstep : ∀ a ∈ as, ∀ s s', (step a).perform s = (.ok (), s') → Q (happens a s) s s')
    (hrun : (as.forM step).perform s = (.ok PUnit.unit, s')) :
    Q (GridStyle.stages happens step as s) s s' := by
  induction as generalizing s with
  | nil => exact perform_forM_nil_ok.1 hrun ▸ h.refl s
  | cons a as ih =>
    rw [List.forall_mem_cons] at hstep
    rw [perform_forM_cons, perform_bind_ok] at hrun
    obtain ⟨_, s₁, ha, has⟩ := hrun
    rw [GridStyle.stages, ha]
    exact h.trans (hstep.1 s s₁ ha) (ih hstep.2 has)

/-- A search, or a walk that is over. -/
theorem known (h : EventLaw kit cell admitted composed Q) {initial : Bool} {token : Token}
    {rest : List Token} (hin : ∀ t ∈ Token.within (token :: rest), admitted t)
    (hknown : initial = true ∧ s.grid.isSome)
    (hrun : (GridStyle.expandTokens kit cell initial (token :: rest)).perform s = (.ok (), s')) :
    Q [] s s' := by
  rw [perform_expandTokens_known kit cell hknown] at hrun
  split at hrun
  · rw [Prod.mk.injEq] at hrun
    exact hrun.2 ▸ h.refl s
  · exact h.searched hin hrun

-- The recursion is that of the walk. What is left after the steps without events are the rules,
-- which are declared one by one.
mutual

/-- What holds of the events of a walk over tokens. -/
theorem expandTokens (h : EventLaw kit cell admitted composed Q) :
    ∀ {initial : Bool} {tokens : List Token} ⦃s s' : Expansion⦄,
      (∀ t ∈ Token.within tokens, admitted t) →
      (GridStyle.expandTokens kit cell initial tokens).perform s = (.ok (), s') →
      Q (events kit cell initial tokens s) s s'
  | initial, [] => by
    intro s s' _ hrun
    rw [GridStyle.expandTokens, perform_pure_ok] at hrun
    exact hrun.2 ▸ h.refl s
  | initial, token :: rest => by
    intro s s' hin hrun
    rw [events]
    split
    · next hknown => exact h.known hin hknown hrun
    · next hknown =>
      rw [Token.forall_within_cons] at hin
      rw [perform_expandTokens_cons kit cell hknown, perform_bind_ok] at hrun
      obtain ⟨_, s₁, htoken, hrest⟩ := hrun
      rw [htoken]
      exact h.trans (h.expandToken hin.1 hin.2.1 htoken) (h.expandTokens hin.2.2 hrest)

theorem expandToken (h : EventLaw kit cell admitted composed Q) :
    ∀ {initial : Bool} {token : Token} ⦃s s' : Expansion⦄, admitted token →
      (∀ t ∈ token.inside, admitted t) →
      (GridStyle.expandToken kit cell initial token).perform s = (.ok (), s') →
      Q (tokenEvents kit cell initial token s) s s'
  | initial, .rule declaration => by
    intro s s' _ hin hrun
    rw [expandToken_rule] at hrun
    rw [tokenEvents_rule]
    exact h.declareRule (h.own declaration) hin hrun
  | initial, .pseudo id list styles => by
    intro s s' hself hin hrun
    rw [perform_expandToken_pseudo] at hrun
    rw [tokenEvents]
    -- The rules of a block are composed once for every part, with the selector of the part.
    have hpart : ∀ part ∈ selectorParts (Selector.normalize list), ∀ u u',
        (GridStyle.expandRules kit cell (partSelector cell (Selector.isSpecial
          (Selector.normalize list)) part) styles).perform u = (.ok (), u') →
        Q (rulesEvents kit cell (partSelector cell (Selector.isSpecial
          (Selector.normalize list)) part) styles u) u u' :=
      fun part hpart u u' hrules => h.expandRules (h.block hself part hpart) hin hrules
    generalize Selector.isSpecial (Selector.normalize list) = special at hrun hpart ⊢
    split at hrun
    -- A block that was composed before is passed over.
    · next hold =>
      rw [Prod.mk.injEq] at hrun
      simp only [if_pos hold]
      exact hrun.2 ▸ h.refl s
    · next hnew =>
      simp only [if_neg hnew]
      cases special with
      | true =>
        -- That the block begins is no event.
        rw [if_pos rfl, beginSpecial, perform_modify_bind] at hrun
        exact h.after (h.stages hpart hrun) (h.begins id list styles s hself)
      | false =>
        rw [if_neg Bool.false_ne_true, pure_bind] at hrun
        exact h.stages hpart hrun
  | initial, .condition name arguments styles => by
    intro s s' _ hin hrun
    rw [GridStyle.expandToken, perform_bind_ok] at hrun
    obtain ⟨b, s₁, hholds, hstyles⟩ := hrun
    rw [tokenEvents, hholds]
    cases b with
    | false =>
      rw [if_neg Bool.false_ne_true, perform_pure_ok] at hstyles
      exact hstyles.2 ▸ h.act hholds
    | true =>
      rw [if_pos rfl] at hstyles
      have hrest := h.expandTokens hin hstyles
      exact h.after hrest (h.act hholds)
  | initial, .keyframes name steps => by
    intro s s' _ _ hrun
    rw [GridStyle.expandToken, perform_modify_ok] at hrun
    subst hrun
    exact h.silent rfl rfl rfl rfl rfl

theorem expandRules (h : EventLaw kit cell admitted composed Q) :
    ∀ {styles : List (RuleOf Token)} {selector : String} ⦃s s' : Expansion⦄,
      (∀ r ∈ styles, composed selector r) → (∀ t ∈ Token.withinRules styles, admitted t) →
      (GridStyle.expandRules kit cell selector styles).perform s = (.ok (), s') →
      Q (rulesEvents kit cell selector styles s) s s'
  | [], selector => by
    intro s s' _ _ hrun
    rw [GridStyle.expandRules, perform_pure_ok] at hrun
    exact hrun.2 ▸ h.refl s
  | declaration :: rest, selector => by
    intro s s' hcomposed hin hrun
    rw [List.forall_mem_cons] at hcomposed
    rw [Token.forall_withinRules_cons] at hin
    rw [expandRules_cons, perform_bind_ok] at hrun
    obtain ⟨_, s₁, hrule, hrest⟩ := hrun
    rw [rulesEvents, hrule]
    exact h.trans (h.declareRule hcomposed.1 hin.2.1 hrule)
      (h.expandRules hcomposed.2 hin.2.2 hrest)

theorem declareRule (h : EventLaw kit cell admitted composed Q) :
    ∀ {declaration : RuleOf Token} {selector : String} ⦃s s' : Expansion⦄,
      composed selector declaration → (∀ t ∈ Token.insideRule declaration, admitted t) →
      (GridStyle.declareRule kit cell selector declaration).perform s = (.ok (), s') →
      Q (ruleEvents kit cell selector declaration s) s s'
  | ⟨property, value, styles⟩, selector => by
    intro s s' hcomposed hin hrun
    by_cases huse : property = "@use"
    · rw [GridStyle.declareRule, composeRule_inclusion kit cell _ huse, bind_assoc,
        perform_bind_ok] at hrun
      obtain ⟨texts, s₁, hact, hrest⟩ := hrun
      rw [ruleEvents, hact]
      simp only [if_pos huse]
      rw [bind_assoc, perform_get_bind, bind_assoc, perform_bind_ok] at hrest
      obtain ⟨_, s₂, hstyles, hdone⟩ := hrest
      -- The text of an inclusion is empty.
      rw [pure_bind, perform_modify_ok] at hdone
      have hwalk := h.expandTokens hin hstyles
      exact hdone ▸ h.after hwalk (h.act hact)
    · exact h.rule hcomposed huse hrun

end

/-- The rules of a block for its parts. -/
theorem parts (h : EventLaw kit cell admitted composed Q) {special : Bool} {styles : List Rule}
    {parts : List String}
    (hcomposed : ∀ part ∈ parts, ∀ r ∈ styles, composed (partSelector cell special part) r)
    (hin : ∀ t ∈ Token.withinRules styles, admitted t)
    (hrun : (parts.forM fun part =>
      GridStyle.expandRules kit cell (partSelector cell special part) styles).perform s =
        (.ok PUnit.unit, s')) :
    Q (GridStyle.stages
      (fun part => rulesEvents kit cell (partSelector cell special part) styles)
      (fun part => GridStyle.expandRules kit cell (partSelector cell special part) styles)
      parts s) s s' :=
  h.stages (fun part hpart _ _ hrules => h.expandRules (hcomposed part hpart) hin hrules) hrun

theorem expandCell (h : EventLaw kit cell admitted composed Q) {initial : Bool}
    {tokens : List Token} (hin : ∀ t ∈ Token.within tokens, admitted t)
    (hrun : (GridStyle.expandCell kit initial tokens cell).perform s = (.ok (), s')) :
    Q (cellEvents kit initial tokens cell s) s s' := by
  rw [perform_expandCell] at hrun
  have hwalk := h.expandTokens hin hrun
  exact h.after hwalk (h.silent rfl rfl rfl rfl rfl)

end EventLaw

end GridStyle
