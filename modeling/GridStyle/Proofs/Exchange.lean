import GridStyle.Proofs.Expansion.Exchange
import GridStyle.Proofs.Expansion.Itinerary

/-!
# Equal Stylesheets of Trees That Differ in One Place

What can be exchanged in both passes and in the steps of keyframes can be exchanged in a generation:
the two trees have the same stylesheet, or fail with the same error (`generate_exchange`).
-/

namespace GridStyle

open Expanding

/-! ### Steps of keyframes -/

/-- The texts of rules for a step of keyframes, without empty ones. -/
def ruleTexts (kit : Toolkit) (cell : Cell) (styles : List Rule) : Expanding (List String) := do
  let texts ← styles.mapM (composeRule kit cell none)
  return texts.filter (!·.isEmpty)

section Steps

variable {kit : Toolkit} {cell : Cell}

theorem ruleTexts_append (front back : List Rule) :
    ruleTexts kit cell (front ++ back) = (do
      let texts ← ruleTexts kit cell front
      let texts' ← ruleTexts kit cell back
      return texts ++ texts') := by
  simp only [ruleTexts, List.mapM_append, bind_assoc, pure_bind, List.filter_append]

theorem stepText_eq (step : Step) :
    stepText kit cell step = (do
      let texts ← ruleTexts kit cell step.styles
      return "  " ++ step.name ++ " \x7b " ++ String.intercalate " " texts ++ " \x7d") := by
  simp only [stepText, ruleTexts, bind_assoc, pure_bind]

end Steps

/-! ### Collecting outcomes -/

namespace InStep

variable {α β : Type} {R : StateRelation} {s t : Expansion}

/-- Running steps for the elements of two lists and collecting the outcomes. -/
theorem mapM_forall₂ {S : α → α → Prop} {u v : α → Expanding β} {as bs : List α}
    (hS : List.Forall₂ S as bs)
    (h : ∀ a b, S a b → ∀ s t, R s t → InStep R (u a) s (v b) t) (hR : R s t) :
    InStep R (as.mapM u) s (bs.mapM v) t := by
  induction hS generalizing s t with
  | nil => exact pure hR []
  | cons hab _ ih =>
    rw [List.mapM_cons, List.mapM_cons]
    refine bind (h _ _ hab s t hR) fun c s' t' hR' => ?_
    exact bind (ih hR') fun cs s'' t'' hR'' => pure hR'' (c :: cs)

end InStep

/-- States that agree after a visit of a cell, or before the first one. -/
def AgreeOut (f g : Filling) (admitted : Token → Prop) (defined : Bool) : StateRelation :=
  fun s t => Agree f g admitted defined s t ∧ (s.history = #[] ∨ s.discovering = false)

section Rendering

variable {kit : Toolkit} {cell : Cell} {defined : Bool} {admitted : Token → Prop}
  {f g : Filling} {s t : Expansion}

/-- In the place two fillings are exchangeable among the rules of a step of keyframes. -/
def ExchangeTexts (kit : Toolkit) (cell : Cell) (defined : Bool) (admitted : Token → Prop)
    (f g : Filling) : Prop :=
  ∀ {s t}, AgreeIn f g admitted false defined s t →
    InStep (AgreeIn f g admitted false defined) (ruleTexts kit cell f.rules) s
      (ruleTexts kit cell g.rules) t

/-- The same rules have the same texts. -/
theorem inStep_ruleTexts_same (styles : List Rule) (hR : AgreeIn f g admitted false defined s t) :
    InStep (AgreeIn f g admitted false defined) (ruleTexts kit cell styles) s
      (ruleTexts kit cell styles) t := by
  refine InStep.bind (InStep.mapM (fun declaration _ s t hR => ?_) hR)
    fun texts s' t' hR' => InStep.pure hR' _
  exact AgreeIn.coupling.inStep_composeRule declaration none trivial (fun _ _ => trivial) hR

theorem inStep_ruleTexts_between {before middle middle' after : List Rule}
    (hmiddle : ∀ s t, AgreeIn f g admitted false defined s t →
      InStep (AgreeIn f g admitted false defined) (ruleTexts kit cell middle) s
        (ruleTexts kit cell middle') t) (hR : AgreeIn f g admitted false defined s t) :
    InStep (AgreeIn f g admitted false defined)
      (ruleTexts kit cell (before ++ middle ++ after)) s
      (ruleTexts kit cell (before ++ middle' ++ after)) t := by
  simp only [ruleTexts_append, bind_assoc, pure_bind]
  refine InStep.bind (inStep_ruleTexts_same before hR) fun texts s₁ t₁ hR₁ => ?_
  refine InStep.bind (hmiddle s₁ t₁ hR₁) fun texts' s₂ t₂ hR₂ => ?_
  exact InStep.bind (inStep_ruleTexts_same after hR₂) fun _ s₃ t₃ hR₃ => InStep.pure hR₃ _

/-- The rules of two steps have the same texts, without empty ones. -/
theorem inStep_ruleTexts (h : Exchange kit cell false defined admitted (fun _ => True) f g)
    (htexts : ExchangeTexts kit cell defined admitted f g) (p : RulesPlace)
    (hin : ∀ t ∈ Token.withinRules (p.fill f), admitted t)
    (hR : AgreeIn f g admitted false defined s t) :
    InStep (AgreeIn f g admitted false defined) (ruleTexts kit cell (p.fill f)) s
      (ruleTexts kit cell (p.fill g)) t := by
  cases p with
  | here before after => exact inStep_ruleTexts_between (fun s t hR => htexts hR) hR
  | inside before declaration after =>
    rw [RulesPlace.fill, Token.forall_withinRules] at hin
    have hcarried := (hin (declaration.fill f) (by simp)).2
    have hsplit : ∀ r : Rule, before ++ r :: after = before ++ [r] ++ after := fun r => by simp
    rw [RulesPlace.fill, RulesPlace.fill, hsplit, hsplit]
    refine inStep_ruleTexts_between (fun s t hR => ?_) hR
    simp only [ruleTexts, List.mapM_cons, List.mapM_nil, bind_assoc, pure_bind]
    exact InStep.bind (h.inStep_composeRule declaration none hcarried hR fun _ _ => trivial)
      fun text s' t' hR' => InStep.pure hR' _

/-- Two steps have the same text, from states that agree. -/
def AlikeSteps (kit : Toolkit) (cell : Cell) (defined : Bool) (admitted : Token → Prop)
    (f g : Filling) (a b : Step) : Prop :=
  ∀ s t, AgreeIn f g admitted false defined s t →
    InStep (AgreeIn f g admitted false defined) (stepText kit cell a) s (stepText kit cell b) t

theorem AlikeSteps.refl (step : Step) : AlikeSteps kit cell defined admitted f g step step := by
  intro s t hR
  rw [stepText_eq]
  exact InStep.bind (inStep_ruleTexts_same step.styles hR) fun _ s' t' hR' => InStep.pure hR' _

theorem AlikeSteps.fill (h : Exchange kit cell false defined admitted (fun _ => True) f g)
    (htexts : ExchangeTexts kit cell defined admitted f g) (p : RulesPlace) (name : String)
    (hin : ∀ t ∈ Token.withinRules (p.fill f), admitted t) :
    AlikeSteps kit cell defined admitted f g ⟨name, p.fill f⟩ ⟨name, p.fill g⟩ := by
  intro s t hR
  rw [stepText_eq, stepText_eq]
  exact InStep.bind (inStep_ruleTexts h htexts p hin hR) fun _ s' t' hR' => InStep.pure hR' _

/-- Two definitions that are the same or fillings of one have the same body. -/
theorem inStep_keyframesBody (h : Exchange kit cell false defined admitted (fun _ => True) f g)
    (htexts : ExchangeTexts kit cell defined admitted f g) {k k' : Keyframes}
    (hk : Exchanged f g admitted k k') (hR : AgreeIn f g admitted false defined s t) :
    InStep (AgreeIn f g admitted false defined) (keyframesBody kit cell k) s
      (keyframesBody kit cell k') t := by
  obtain rfl | ⟨p, hf, hg, hin⟩ := hk
  · exact AgreeIn.coupling.inStep_keyframesBody (fun _ _ => trivial) hR
  -- The place is in a step of the definition.
  cases p with
  | keyframes name before step rules after =>
    obtain ⟨name', steps⟩ := k
    obtain ⟨name'', steps'⟩ := k'
    rw [hf, Token.inside, Token.forall_withinSteps] at hin
    rw [TokenPlace.fill, Token.keyframes.injEq] at hf hg
    obtain ⟨-, rfl⟩ := hf
    obtain ⟨-, rfl⟩ := hg
    -- Only the step with the place differs.
    have hplace := AlikeSteps.fill h htexts rules step (hin ⟨step, rules.fill f⟩ (by simp))
    have hsteps : List.Forall₂ (AlikeSteps kit cell defined admitted f g)
        (before ++ ⟨step, rules.fill f⟩ :: after) (before ++ ⟨step, rules.fill g⟩ :: after) :=
      List.rel_append (List.forall₂_same.2 fun step _ => AlikeSteps.refl step)
        (.cons hplace (List.forall₂_same.2 fun step _ => AlikeSteps.refl step))
    exact InStep.bind (InStep.mapM_forall₂ hsteps (fun a b hab => hab) hR)
      fun _ s' t' hR' => InStep.pure hR' _
  | _ => exact Token.noConfusion hf

/-- The definitions that were registered are rendered alike for the visited cells. -/
theorem inStep_keyframesSection
    (h : ∀ cell, Exchange kit cell false defined admitted (fun _ => True) f g)
    (htexts : ∀ cell, ExchangeTexts kit cell defined admitted f g)
    (hR : AgreeOut f g admitted defined s t) :
    InStep (Agree f g admitted defined) (keyframesSection kit) s (keyframesSection kit) t := by
  obtain ⟨hagree, hout⟩ := hR
  have hhistory : t.history = s.history := by rw [hagree.same]; rfl
  unfold keyframesSection
  refine InStep.get_bind ?_
  rw [hhistory]
  obtain hempty | hdiscovering := hout
  · -- No cell was visited.
    rw [hempty]
    exact ⟨rfl, hagree⟩
  refine InStep.mono (R := AgreeIn f g admitted false defined) ?_ fun hR => hR.2
  refine InStep.bind (InStep.mapM (fun visited _ s' t' hR => ?_) ⟨hdiscovering, hagree⟩)
    fun texts s' t' hR => InStep.pure hR _
  obtain ⟨cell, i⟩ := visited
  refine InStep.mapM_forall₂ hagree.keyframes (fun k k' hk s t hR => ?_) hR
  rw [cellKeyframes, cellKeyframes, hk.name_eq]
  exact InStep.bind (inStep_keyframesBody (h cell) (htexts cell) hk hR)
    fun body s t hR => InStep.pure hR _

end Rendering

/-! ### Generations -/

section Generation

variable {kit : Toolkit} {cell : Cell} {initial defined : Bool} {admitted : Token → Prop}
  {allowed : Arrival → Prop} {f g : Filling} {s t : Expansion} {seed : UInt64} {p : Place}

theorem Agree.refl (hdefined : defined = true → s.gridDefined = true) :
    Agree f g admitted defined s s :=
  ⟨rfl, List.forall₂_same.2 fun _ _ => .inl rfl, hdefined⟩

theorem Agree.enter (h : Agree f g admitted defined s t) (initial : Bool) (cell : Cell) :
    AgreeIn f g admitted initial defined (s.enter initial cell) (t.enter initial cell) := by
  refine ⟨rfl, ?_, h.keyframes, h.defined⟩
  rw [h.same]
  rfl

theorem Agree.restart {defined' : Bool} (h : Agree f g admitted defined s t)
    (hdefined : defined' = true → s.gridDefined = true) (seed : UInt64) :
    AgreeOut f g admitted defined' (s.restart seed) (t.restart seed) := by
  refine ⟨⟨?_, h.keyframes, hdefined⟩, .inl rfl⟩
  rw [h.same]
  rfl

/-- The visits of one cell are in step. -/
theorem Exchange.inStep_expandCell (h : Exchange kit cell initial defined admitted allowed f g)
    (hin : ∀ t ∈ Token.within (p.fill f), admitted t) (hR : Agree f g admitted defined s t)
    (ha : ∀ a ∈ p.arrivals f kit cell initial (s.enter initial cell), allowed a) :
    InStep (AgreeIn f g admitted initial defined) (expandCell kit initial (p.fill f) cell) s
      (expandCell kit initial (p.fill g) cell) t :=
  h.inStep_expandTokens p hin (hR.enter initial cell) ha

/-- Two fillings that can be exchanged in the first pass, in the second and in the steps of
keyframes do not make a difference. -/
theorem generate_exchange (hin : ∀ t ∈ Token.within (p.fill f), admitted t)
    (hfirst : Exchange kit Cell.discovery true false admitted allowed f g)
    (hallowed : ∀ a ∈ p.firstArrivals f kit seed, allowed a)
    (hsecond : ∀ cell, Exchange kit cell false defined admitted (fun _ => True) f g)
    (htexts : ∀ cell, ExchangeTexts kit cell defined admitted f g)
    (hdefined : defined = true → ∀ s, (expandCell kit true (p.fill f) Cell.discovery).perform
      (.ofSeed seed) = (.ok (), s) → s.gridDefined = true) (default : GridSize) :
    generate kit seed (p.fill f) default = generate kit seed (p.fill g) default := by
  have hpass : InStep (AgreeIn f g admitted true false)
      (expandCell kit true (p.fill f) Cell.discovery) (.ofSeed seed)
      (expandCell kit true (p.fill g) Cell.discovery) (.ofSeed seed) :=
    hfirst.inStep_expandCell hin (Agree.refl fun h => Bool.noConfusion h) hallowed
  suffices h : InStep (fun _ _ => True) (generation kit seed (p.fill f) default) (.ofSeed seed)
      (generation kit seed (p.fill g) default) (.ofSeed seed) from h.1
  simp only [generation, discover, bind_assoc, pure_bind]
  -- The first passes end in states that agree, and so they have found the same grid.
  refine InStep.bind_of_ok (fun _ => trivial) hpass fun _ s₁ t₁ hdone hR₁ => ?_
  refine InStep.get_bind ?_
  rw [hR₁.grid_eq]
  -- The second pass visits the same cells.
  refine InStep.bind_of_ok (R := AgreeOut f g admitted defined) (fun _ => trivial) ?_
    fun _ s₂ t₂ _ hR₂ => ?_
  · refine InStep.forM (fun cell _ s t hR => ?_)
      (hR₁.2.restart (fun h => hdefined h s₁ hdone) seed)
    exact InStep.mono ((hsecond cell).inStep_expandCell hin hR.1 fun _ _ => trivial)
      fun hR => ⟨hR.2, .inr hR.1⟩
  refine InStep.get_bind ?_
  refine InStep.bind_of_ok (fun _ => trivial) (inStep_keyframesSection hsecond htexts hR₂)
    fun keyframes s₃ t₃ _ hR₃ => InStep.get_bind ?_
  -- All that is written out is equal by now.
  have hrules : t₂.rules = s₂.rules := by rw [hR₂.1.same]; rfl
  have hfeatures : t₃.features = s₃.features := by rw [hR₃.same]; rfl
  rw [hrules, hfeatures]
  exact InStep.pure trivial _

end Generation

end GridStyle
