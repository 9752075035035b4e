import GridStyle.Proofs.Conditions
import GridStyle.Proofs.Expansion.EventLaw
import GridStyle.Proofs.Expansion.Exchange
import GridStyle.Proofs.Place

/-!
# Arrivals and Events

An `ArrivalLaw` relates the times that a walk comes to a place to the events of the walk. It holds
of a whole walk that succeeds if it holds where what stands in the place is walked or composed, and
of all that is walked without coming there (`ArrivalLaw.expandTokens`).

One such law says that the events of a rule are among those of the walk each time that the walk
composes the rule (`exists_events_of_arrival`).
-/

namespace GridStyle

open Expanding

variable {kit : Toolkit} {cell : Cell}

/-! ### Events of lists -/

section Lists

variable {initial : Bool} {s s' : Expansion}

theorem events_of_known (tokens : List Token) (h : initial = true ∧ s.grid.isSome) :
    events kit cell initial tokens s = [] := by
  cases tokens with
  | nil => rw [events]
  | cons token rest => rw [events, if_pos h]

/-- The events of two lists are those of the first and then those of the second. -/
theorem events_append {front : List Token} (back : List Token)
    (h : (expandTokens kit cell initial front).perform s = (.ok (), s')) :
    events kit cell initial (front ++ back) s =
      events kit cell initial front s ++ events kit cell initial back s' := by
  induction front generalizing s with
  | nil =>
    rw [expandTokens, perform_pure_ok] at h
    rw [List.nil_append, h.2, events, List.nil_append]
  | cons token front ih =>
    by_cases hknown : initial = true ∧ s.grid.isSome
    · -- The grid is still known behind the first list.
      obtain ⟨rfl, hgrid⟩ := hknown
      rw [perform_expandTokens_of_isSome _ hgrid] at h
      have hgrid' := isSome_grid_of_seekHostGrid hgrid h
      rw [events_of_known _ ⟨rfl, hgrid⟩, events_of_known _ ⟨rfl, hgrid⟩,
        events_of_known _ ⟨rfl, hgrid'⟩, List.append_nil]
    · rw [perform_expandTokens_cons kit cell hknown, perform_bind_ok] at h
      obtain ⟨_, s₁, htoken, hfront⟩ := h
      rw [List.cons_append, events, events, if_neg hknown, if_neg hknown, htoken, ih hfront,
        List.append_assoc]

theorem rulesEvents_append {selector : String} {front : List Rule} (back : List Rule)
    (h : (expandRules kit cell selector front).perform s = (.ok (), s')) :
    rulesEvents kit cell selector (front ++ back) s =
      rulesEvents kit cell selector front s ++ rulesEvents kit cell selector back s' := by
  induction front generalizing s with
  | nil =>
    rw [expandRules, perform_pure_ok] at h
    rw [List.nil_append, h.2, rulesEvents, List.nil_append]
  | cons declaration front ih =>
    rw [expandRules_cons, perform_bind_ok] at h
    obtain ⟨_, s₁, hrule, hfront⟩ := h
    rw [List.cons_append, rulesEvents, rulesEvents, hrule, ih hfront, List.append_assoc]

end Lists

/-! ### Laws of arrivals -/

variable {admitted : Token → Prop} {inRules : Prop} {f : Filling}
  {T : List Arrival → List Event → Expansion → Expansion → Prop}

/-- A relation of two states, the arrivals at a place and the events between them, for walks over
admitted tokens with a place that is filled. The place may be among rules only if `inRules` says
so. -/
structure ArrivalLaw (kit : Toolkit) (cell : Cell) (admitted : Token → Prop) (inRules : Prop)
    (f : Filling) (T : List Arrival → List Event → Expansion → Expansion → Prop) : Prop where
  /-- Two stretches make one. -/
  trans : ∀ {as as' es es' s s₁ s'}, T as es s s₁ → T as' es' s₁ s' →
    T (as ++ as') (es ++ es') s s'
  /-- Besides the place there is a law of events. -/
  besides : EventLaw kit cell admitted (fun _ _ => True) fun es s s' => T [] es s s'
  /-- In a search the place is only searched. -/
  searched : ∀ {as tokens s s'}, (∀ a ∈ as, a.isSearch = true) →
    (seekHostGrid kit cell tokens).perform s = (.ok (), s') → T as [] s s'
  /-- The walk comes to the place among tokens. -/
  filled : ∀ {initial s s'}, ¬ (initial = true ∧ s.grid.isSome) →
    (expandTokens kit cell initial f.tokens).perform s = (.ok (), s') →
    T [.composes (Selector.ofCell cell "") s] (events kit cell initial f.tokens s) s s'
  /-- The walk comes to the place among rules. -/
  filledRules : ∀ {selector s s'}, inRules →
    (expandRules kit cell selector f.rules).perform s = (.ok (), s') →
    T [.composes selector s] (rulesEvents kit cell selector f.rules s) s s'

/-- What comes after a step that succeeds. -/
theorem andThen_of_ok {α β : Type} {step : Expanding α} {arrivals : α → Expansion → List β}
    {s s' : Expansion} {a : α} (h : step.perform s = (.ok a, s')) :
    step.andThen arrivals s = arrivals a s' := by
  rw [andThen, h]

/-- An element of what comes after a step comes after a step that succeeds. -/
theorem exists_of_mem_andThen {α β : Type} {step : Expanding α} {s : Expansion}
    {arrivals : α → Expansion → List β} {b : β} (h : b ∈ step.andThen arrivals s) :
    ∃ a s', step.perform s = (.ok a, s') ∧ b ∈ arrivals a s' := by
  rw [andThen] at h
  split at h
  · next a s' hstep => exact ⟨a, s', hstep, h⟩
  · exact absurd h List.not_mem_nil

section Known

mutual

/-- Once a grid is known an initial walk composes nothing. -/
theorem isSearch_of_known : ∀ (p : Place) {s : Expansion}, s.grid.isSome →
    ∀ a ∈ p.arrivals f kit cell true s, a.isSearch = true
  | .here before _, s, hgrid, a, ha => by
    rw [Place.arrivals] at ha
    obtain ⟨_, s₁, hbefore, ha⟩ := exists_of_mem_andThen ha
    -- What stands in front is only searched, so the grid is still known.
    rw [perform_expandTokens_of_isSome _ hgrid] at hbefore
    rw [if_pos ⟨rfl, isSome_grid_of_seekHostGrid hgrid hbefore⟩] at ha
    split at ha
    · exact absurd ha List.not_mem_nil
    · rw [List.mem_singleton.1 ha]
      rfl
  | .inside before token _, s, hgrid, a, ha => by
    rw [Place.arrivals] at ha
    obtain ⟨_, s₁, hbefore, ha⟩ := exists_of_mem_andThen ha
    rw [perform_expandTokens_of_isSome _ hgrid] at hbefore
    exact isSearch_token_of_known token (isSome_grid_of_seekHostGrid hgrid hbefore) a ha

theorem isSearch_token_of_known : ∀ (p : TokenPlace) {s : Expansion}, s.grid.isSome →
    ∀ a ∈ p.arrivals f kit cell true s, a.isSearch = true
  | .rule declaration, s, hgrid, a, ha => by
    rw [TokenPlace.arrivals, if_pos ⟨rfl, hgrid⟩] at ha
    exact absurd ha List.not_mem_nil
  | .pseudo id list rules, s, hgrid, a, ha => by
    rw [TokenPlace.arrivals, if_pos (.inl ⟨rfl, hgrid⟩)] at ha
    exact absurd ha List.not_mem_nil
  | .condition name arguments tokens, s, hgrid, a, ha => by
    rw [TokenPlace.arrivals] at ha
    obtain ⟨b, s₁, hholds, ha⟩ := exists_of_mem_andThen ha
    obtain ⟨c, -, rfl⟩ := perform_act_ok.1 hholds
    split at ha
    · exact isSearch_of_known (s := s.withContext c) tokens hgrid a ha
    · exact absurd ha List.not_mem_nil
  | .keyframes _ _ _ _ _, s, _, a, ha => absurd ha List.not_mem_nil

end

end Known

namespace ArrivalLaw

variable {s s₁ s' : Expansion} {as : List Arrival} {es : List Event}

/-- Tokens besides the place. -/
theorem tokens (h : ArrivalLaw kit cell admitted inRules f T) {initial : Bool}
    {tokens : List Token} (hin : ∀ t ∈ Token.within tokens, admitted t)
    (hrun : (GridStyle.expandTokens kit cell initial tokens).perform s = (.ok (), s')) :
    T [] (events kit cell initial tokens s) s s' := h.besides.expandTokens hin hrun

/-- Rules besides the place. -/
theorem rules (h : ArrivalLaw kit cell admitted inRules f T) {selector : String}
    {styles : List Rule} (hin : ∀ t ∈ Token.withinRules styles, admitted t)
    (hrun : (GridStyle.expandRules kit cell selector styles).perform s = (.ok (), s')) :
    T [] (rulesEvents kit cell selector styles s) s s' :=
  h.besides.expandRules (fun _ _ => trivial) hin hrun

/-- What happens after steps without arrivals and events. -/
theorem after (h : ArrivalLaw kit cell admitted inRules f T) (hrest : T as es s₁ s')
    (hsilent : T [] [] s s₁) : T as es s s' := h.trans hsilent hrest

/-- A stretch between two others without arrivals. -/
theorem between (h : ArrivalLaw kit cell admitted inRules f T) {s₂ : Expansion}
    {front back : List Event} (hfront : T [] front s s₁) (hmiddle : T as es s₁ s₂)
    (hback : T [] back s₂ s') : T as (front ++ (es ++ back)) s s' := by
  have hrest := h.trans hmiddle hback
  rw [List.append_nil] at hrest
  exact h.trans hfront hrest

/-- Steps for the elements of a list, one after the other. -/
theorem along (h : ArrivalLaw kit cell admitted inRules f T) {α : Type} {step : α → Expanding Unit}
    {arrivals : α → Expansion → List Arrival} {happens : α → Expansion → List Event}
    {elements : List α}
    (hstep : ∀ a ∈ elements, ∀ s s', (step a).perform s = (.ok (), s') →
      T (arrivals a s) (happens a s) s s')
    (hrun : (elements.forM step).perform s = (.ok PUnit.unit, s')) :
    T (Expanding.along step arrivals elements s) (stages happens step elements s) s s' := by
  induction elements generalizing s with
  | nil => exact perform_forM_nil_ok.1 hrun ▸ h.besides.refl s
  | cons a elements ih =>
    rw [List.forall_mem_cons] at hstep
    rw [perform_forM_cons, perform_bind_ok] at hrun
    obtain ⟨_, s₁, ha, hrest⟩ := hrun
    rw [Expanding.along, stages, andThen_of_ok ha, ha]
    exact h.trans (hstep.1 s s₁ ha) (ih hstep.2 hrest)

-- The recursion is on the place. Everything besides the place has a law of its own, and so has the
-- place itself.
mutual

/-- What holds of the arrivals and the events of a walk over a filled tree. -/
theorem expandTokens (h : ArrivalLaw kit cell admitted inRules f T) :
    ∀ (p : Place) {initial : Bool} ⦃s s' : Expansion⦄, (p.AmongTokens ∨ inRules) →
      (∀ t ∈ Token.within (p.fill .nothing), admitted t) →
      (GridStyle.expandTokens kit cell initial (p.fill f)).perform s = (.ok (), s') →
      T (p.arrivals f kit cell initial s) (events kit cell initial (p.fill f) s) s s'
  | .here before after, initial => by
    intro s s' _ hin hrun
    rw [Place.fill, Token.forall_within, Filling.nothing, List.append_nil,
      List.forall_mem_append, ← Token.forall_within, ← Token.forall_within] at hin
    rw [Place.fill, List.append_assoc, expandTokens_append, perform_bind_ok] at hrun
    obtain ⟨_, s₁, hbefore, hrest⟩ := hrun
    rw [Place.arrivals, andThen_of_ok hbefore, Place.fill, List.append_assoc,
      events_append _ hbefore]
    by_cases hknown : initial = true ∧ s₁.grid.isSome
    · obtain ⟨rfl, hgrid⟩ := hknown
      rw [perform_expandTokens_of_isSome _ hgrid] at hrest
      rw [if_pos ⟨rfl, hgrid⟩, events_of_known _ ⟨rfl, hgrid⟩]
      -- The place is searched unless the grid is that of the host.
      have hsearch : ∀ a ∈ if s₁.hostGrid then [] else [Arrival.searches s₁],
          a.isSearch = true := by
        split <;> simp [Arrival.isSearch]
      exact h.trans (h.tokens hin.1 hbefore) (h.searched hsearch hrest)
    · rw [expandTokens_append, perform_bind_ok] at hrest
      obtain ⟨_, s₂, hfilling, hafter⟩ := hrest
      rw [if_neg hknown, events_append _ hfilling]
      exact h.between (h.tokens hin.1 hbefore) (h.filled hknown hfilling) (h.tokens hin.2 hafter)
  | .inside before token after, initial => by
    intro s s' hplace hin hrun
    rw [Place.fill, Token.forall_within, List.forall_mem_append, List.forall_mem_cons,
      ← Token.forall_within, ← Token.forall_within] at hin
    rw [Place.fill, expandTokens_append, perform_bind_ok] at hrun
    obtain ⟨_, s₁, hbefore, hrest⟩ := hrun
    rw [Place.arrivals, andThen_of_ok hbefore, Place.fill, events_append _ hbefore]
    by_cases hknown : initial = true ∧ s₁.grid.isSome
    · obtain ⟨rfl, hgrid⟩ := hknown
      rw [perform_expandTokens_of_isSome _ hgrid] at hrest
      rw [events_of_known _ ⟨rfl, hgrid⟩]
      exact h.trans (h.tokens hin.1 hbefore)
        (h.searched (isSearch_token_of_known token hgrid) hrest)
    · rw [perform_expandTokens_cons kit cell hknown, perform_bind_ok] at hrest
      obtain ⟨_, s₂, htoken, hafter⟩ := hrest
      rw [events, if_neg hknown, htoken]
      exact h.between (h.tokens hin.1 hbefore)
        (h.expandToken token hplace hin.2.1.1 hin.2.1.2 hknown htoken) (h.tokens hin.2.2 hafter)

theorem expandToken (h : ArrivalLaw kit cell admitted inRules f T) :
    ∀ (p : TokenPlace) {initial : Bool} ⦃s s' : Expansion⦄, (p.AmongTokens ∨ inRules) →
      admitted (p.fill .nothing) → (∀ t ∈ (p.fill .nothing).inside, admitted t) →
      ¬ (initial = true ∧ s.grid.isSome) →
      (GridStyle.expandToken kit cell initial (p.fill f)).perform s = (.ok (), s') →
      T (p.arrivals f kit cell initial s) (tokenEvents kit cell initial (p.fill f) s) s s'
  | .rule p, initial => by
    intro s s' hplace _ hin hunknown hrun
    rw [TokenPlace.fill, expandToken_rule] at hrun
    rw [TokenPlace.arrivals, if_neg hunknown, TokenPlace.fill, tokenEvents_rule]
    exact h.declareRule p hplace hin hrun
  | .pseudo id list rules, initial => by
    intro s s' hplace hself hin hunknown hrun
    rw [TokenPlace.fill, perform_expandToken_pseudo] at hrun
    rw [TokenPlace.arrivals, TokenPlace.fill, tokenEvents]
    split at hrun
    · next hold =>
      -- A block that was composed before is passed over.
      rw [Prod.mk.injEq] at hrun
      simp only [if_pos hold, if_pos (Or.inr hold)]
      exact hrun.2 ▸ h.besides.refl s
    · next hnew =>
      -- The walk comes to the place once for every part, with the selector of the part.
      simp only [if_neg hnew, if_neg (not_or.2 ⟨hunknown, hnew⟩)]
      have hpart : ∀ special, ∀ part ∈ selectorParts (Selector.normalize list), ∀ u u',
          (GridStyle.expandRules kit cell (partSelector cell special part) (rules.fill f)).perform
            u = (.ok (), u') →
          T (rules.arrivals f kit cell (partSelector cell special part) u)
            (rulesEvents kit cell (partSelector cell special part) (rules.fill f) u) u u' :=
        fun special part _ u u' hrules => h.expandRules rules hplace hin hrules
      cases hspecial : Selector.isSpecial (Selector.normalize list) with
      | true =>
        rw [hspecial, if_pos rfl, beginSpecial, perform_modify_bind] at hrun
        exact h.after (h.along (hpart true) hrun) (h.besides.begins id list _ s hself)
      | false =>
        rw [hspecial, if_neg Bool.false_ne_true, pure_bind] at hrun
        exact h.along (hpart false) hrun
  | .condition name arguments p, initial => by
    intro s s' hplace _ hin _ hrun
    rw [TokenPlace.fill, GridStyle.expandToken, perform_bind_ok] at hrun
    obtain ⟨b, s₁, hholds, hstyles⟩ := hrun
    rw [TokenPlace.arrivals, andThen_of_ok hholds, TokenPlace.fill, tokenEvents, hholds]
    cases b with
    | false =>
      rw [if_neg Bool.false_ne_true, perform_pure_ok] at hstyles
      exact hstyles.2 ▸ h.besides.act hholds
    | true =>
      rw [if_pos rfl] at hstyles
      have hrest := h.expandTokens p hplace hin hstyles
      exact h.after hrest (h.besides.act hholds)
  | .keyframes name before step rules after, initial => by
    intro s s' _ _ _ _ hrun
    rw [TokenPlace.fill, GridStyle.expandToken, perform_modify_ok] at hrun
    subst hrun
    exact h.besides.silent rfl rfl rfl rfl rfl

theorem declareRule (h : ArrivalLaw kit cell admitted inRules f T) :
    ∀ (p : RulePlace) {selector : String} ⦃s s' : Expansion⦄, (p.AmongTokens ∨ inRules) →
      (∀ t ∈ Token.insideRule (p.fill .nothing), admitted t) →
      (GridStyle.declareRule kit cell selector (p.fill f)).perform s = (.ok (), s') →
      T (p.arrivals f kit cell s) (ruleEvents kit cell selector (p.fill f) s) s s'
  | .mk property value p, selector => by
    intro s s' hplace hin hrun
    rw [RulePlace.arrivals]
    split
    · next huse =>
      rw [RulePlace.fill, GridStyle.declareRule, composeRule_inclusion kit cell _ huse, bind_assoc,
        perform_bind_ok] at hrun
      obtain ⟨texts, s₁, hact, hrest⟩ := hrun
      rw [andThen_of_ok hact, RulePlace.fill, ruleEvents, hact]
      simp only [if_pos huse]
      rw [bind_assoc, perform_get_bind, bind_assoc, perform_bind_ok] at hrest
      obtain ⟨_, s₂, hstyles, hdone⟩ := hrest
      -- The text of an inclusion is empty.
      rw [pure_bind, perform_modify_ok] at hdone
      have hwalk := h.expandTokens p hplace hin hstyles
      exact hdone ▸ h.after hwalk (h.besides.act hact)
    · next huse =>
      have hne : ((RulePlace.mk property value p).fill f).property ≠ "@use" := huse
      exact h.besides.rule trivial hne hrun

theorem expandRules (h : ArrivalLaw kit cell admitted inRules f T) :
    ∀ (p : RulesPlace) {selector : String} ⦃s s' : Expansion⦄, (p.AmongTokens ∨ inRules) →
      (∀ t ∈ Token.withinRules (p.fill .nothing), admitted t) →
      (GridStyle.expandRules kit cell selector (p.fill f)).perform s = (.ok (), s') →
      T (p.arrivals f kit cell selector s) (rulesEvents kit cell selector (p.fill f) s) s s'
  | .here before after, selector => by
    intro s s' hplace hin hrun
    rw [RulesPlace.fill, Token.forall_withinRules, Filling.nothing, List.append_nil,
      List.forall_mem_append, ← Token.forall_withinRules, ← Token.forall_withinRules] at hin
    rw [RulesPlace.fill, List.append_assoc, expandRules_append, perform_bind_ok] at hrun
    obtain ⟨_, s₁, hbefore, hrest⟩ := hrun
    rw [expandRules_append, perform_bind_ok] at hrest
    obtain ⟨_, s₂, hfilling, hafter⟩ := hrest
    rw [RulesPlace.arrivals, andThen_of_ok hbefore, RulesPlace.fill, List.append_assoc,
      rulesEvents_append _ hbefore, rulesEvents_append _ hfilling]
    exact h.between (h.rules hin.1 hbefore) (h.filledRules (hplace.resolve_left id) hfilling)
      (h.rules hin.2 hafter)
  | .inside before p after, selector => by
    intro s s' hplace hin hrun
    rw [RulesPlace.fill, Token.forall_withinRules, List.forall_mem_append, List.forall_mem_cons,
      ← Token.forall_withinRules, ← Token.forall_withinRules] at hin
    rw [RulesPlace.fill, expandRules_append, perform_bind_ok] at hrun
    obtain ⟨_, s₁, hbefore, hrest⟩ := hrun
    rw [expandRules_cons, perform_bind_ok] at hrest
    obtain ⟨_, s₂, hrule, hafter⟩ := hrest
    rw [RulesPlace.arrivals, andThen_of_ok hbefore, RulesPlace.fill, rulesEvents_append _ hbefore,
      rulesEvents, hrule]
    exact h.between (h.rules hin.1 hbefore) (h.declareRule p hplace hin.2.1.2 hrule)
      (h.rules hin.2.2 hafter)

end

end ArrivalLaw

/-! ### The events of a rule -/

section Rule

variable {Q : List Event → Expansion → Expansion → Prop} {declaration : Rule}

/-- Each time that a rule is composed this succeeds, its events are among those of the walk, and
what holds of events holds up to there. -/
def ShowsRule (kit : Toolkit) (cell : Cell) (Q : List Event → Expansion → Expansion → Prop)
    (declaration : Rule) (as : List Arrival) (es : List Event) (s s' : Expansion) : Prop :=
  Q es s s' ∧ ∀ selector u, .composes selector u ∈ as → ∃ before after u',
    es = before ++ ruleEvents kit cell selector declaration u ++ after ∧ Q before s u ∧
      (declareRule kit cell selector declaration).perform u = (.ok (), u')

theorem ShowsRule.of_isSearch {as : List Arrival} {es : List Event} {s s' : Expansion}
    (has : ∀ a ∈ as, a.isSearch = true) (h : Q es s s') :
    ShowsRule kit cell Q declaration as es s s' :=
  ⟨h, fun _ _ hmem => absurd (has _ hmem) Bool.false_ne_true⟩

theorem ShowsRule.of_nil {es : List Event} {s s' : Expansion} (h : Q es s s') :
    ShowsRule kit cell Q declaration [] es s s' :=
  .of_isSearch (fun _ ha => absurd ha List.not_mem_nil) h

theorem ShowsRule.singleton (hQ : EventLaw kit cell (fun _ => True) (fun _ _ => True) Q)
    {selector : String} {s s' : Expansion}
    (h : (declareRule kit cell selector declaration).perform s = (.ok (), s')) :
    ShowsRule kit cell Q declaration [.composes selector s]
      (ruleEvents kit cell selector declaration s) s s' := by
  refine ⟨hQ.declareRule trivial (fun _ _ => trivial) h, fun selector' u hmem => ?_⟩
  rw [List.mem_singleton, Arrival.composes.injEq] at hmem
  obtain ⟨rfl, rfl⟩ := hmem
  exact ⟨[], [], s', (List.append_nil _).symm, hQ.refl _, h⟩

/-- A rule shows wherever it is composed. -/
theorem arrivalLaw_showsRule (hQ : EventLaw kit cell (fun _ => True) (fun _ _ => True) Q)
    (declaration : Rule) :
    ArrivalLaw kit cell (fun _ => True) True (.rule declaration)
      (ShowsRule kit cell Q declaration) where
  trans := by
    rintro as as' es es' s s₁ s' ⟨hes, has⟩ ⟨hes', has'⟩
    refine ⟨hQ.trans hes hes', fun selector u hmem => ?_⟩
    rw [List.mem_append] at hmem
    -- The rule is composed in the first stretch, or else in the second.
    obtain hmem | hmem := hmem
    · obtain ⟨before, after, u', rfl, hbefore, hrule⟩ := has selector u hmem
      exact ⟨before, after ++ es', u', by simp only [List.append_assoc], hbefore, hrule⟩
    · obtain ⟨before, after, u', rfl, hbefore, hrule⟩ := has' selector u hmem
      exact ⟨es ++ before, after, u', by simp only [List.append_assoc], hQ.trans hes hbefore, hrule⟩
  besides := ⟨fun h h' => .of_nil (hQ.trans h.1 h'.1),
    fun hrules hdefined hhost hgrid hcomposed =>
      .of_nil (hQ.silent hrules hdefined hhost hgrid hcomposed),
    fun id list styles s hself => .of_nil (hQ.begins id list styles s hself),
    fun hin h => .of_nil (hQ.searched hin h), fun _ huse h => .of_nil (hQ.rule trivial huse h),
    fun _ => trivial, fun _ _ _ _ _ => trivial⟩
  searched has h := .of_isSearch has (hQ.searched (fun _ _ => trivial) h)
  filled := by
    intro initial s s' hunknown h
    rw [Filling.rule, perform_expandTokens_cons kit cell hunknown, expandToken_rule,
      perform_bind_ok] at h
    obtain ⟨_, s₁, hrule, hdone⟩ := h
    rw [expandTokens, perform_pure_ok] at hdone
    rw [Filling.rule, events, if_neg hunknown, tokenEvents_rule, events, List.append_nil]
    exact hdone.2 ▸ .singleton hQ hrule
  filledRules := by
    intro selector s s' _ h
    rw [Filling.rule, expandRules_cons, perform_bind_ok] at h
    obtain ⟨_, s₁, hrule, hdone⟩ := h
    rw [expandRules, perform_pure_ok] at hdone
    rw [Filling.rule, rulesEvents, rulesEvents, List.append_nil]
    exact hdone.2 ▸ .singleton hQ hrule

/-- Where a walk that succeeds composes a rule, the rule succeeds too, its events are events of the
walk, and what holds of events holds of those before them. -/
theorem exists_events_of_arrival (hQ : EventLaw kit cell (fun _ => True) (fun _ _ => True) Q)
    {p : Place} {initial : Bool} {selector : String} {s s' u : Expansion}
    (hrun : (expandTokens kit cell initial (p.fill (.rule declaration))).perform s = (.ok (), s'))
    (h : .composes selector u ∈ p.arrivals (.rule declaration) kit cell initial s) :
    ∃ before after u', events kit cell initial (p.fill (.rule declaration)) s =
        before ++ ruleEvents kit cell selector declaration u ++ after ∧ Q before s u ∧
      (declareRule kit cell selector declaration).perform u = (.ok (), u') :=
  ((arrivalLaw_showsRule hQ declaration).expandTokens p (.inr trivial) (fun _ _ => trivial)
    hrun).2 selector u h

end Rule

end GridStyle
