import GridStyle.Proofs.Expansion.Lockstep
import GridStyle.Proofs.KeyframeStore

/-!
# Walks With and Without a Discovery

A second pass comes after a discovery, which has composed some special blocks and registered some
keyframes. This module compares its walks with those of a run that never had a discovery
(`AfterDiscovery`). Where the latter succeed, the former do so too, with the same texts, the same
keyframes and the same use of the shared context (`follows_expandTokens`).

The two runs part only at a block that the discovery has composed, which one of them composes and
the other skips. So the rules of such blocks must be inert (`RuleOf.Inert`).
-/

namespace GridStyle

/-- Where the first step succeeds the second succeeds with the same result, and they leave related
states. -/
def Follows {α : Type} (R : StateRelation) (x : Expanding α) (s : Expansion) (y : Expanding α)
    (t : Expansion) : Prop :=
  ∀ a s', x.perform s = (.ok a, s') → ∃ t', y.perform t = (.ok a, t') ∧ R s' t'

namespace Follows

open Expanding

variable {α β : Type} {R : StateRelation} {s t : Expansion}

theorem pure (h : R s t) (a : α) : Follows R (pure a) s (pure a) t := by
  intro b s' hs
  obtain ⟨rfl, rfl⟩ := perform_pure_ok.1 hs
  exact ⟨t, rfl, h⟩

theorem modify {f g : Expansion → Expansion} (h : R (f s) (g t)) :
    Follows R (modify f) s (modify g) t := by
  intro u s' hs
  rw [perform_modify_ok] at hs
  subst hs
  exact ⟨g t, rfl, h⟩

theorem bind {x y : Expanding α} {f g : α → Expanding β} (hx : Follows R x s y t)
    (hf : ∀ a s' t', R s' t' → Follows R (f a) s' (g a) t') :
    Follows R (x >>= f) s (y >>= g) t := by
  intro b s'' hs
  obtain ⟨a, s', hsx, hsf⟩ := perform_bind_ok.1 hs
  obtain ⟨t', htx, hR⟩ := hx a s' hsx
  obtain ⟨t'', htf, hR'⟩ := hf a s' t' hR b s'' hsf
  exact ⟨t'', perform_bind_ok.2 ⟨a, t', htx, htf⟩, hR'⟩

theorem get_bind {f g : Expansion → Expanding α} (h : Follows R (f s) s (g t) t) :
    Follows R (get >>= f) s (get >>= g) t := h

theorem forM {f g : α → Expanding PUnit} {as : List α}
    (h : ∀ a ∈ as, ∀ s t, R s t → Follows R (f a) s (g a) t) (hR : R s t) :
    Follows R (as.forM f) s (as.forM g) t := by
  induction as generalizing s t with
  | nil => exact pure hR PUnit.unit
  | cons a as ih =>
    refine bind (h a List.mem_cons_self s t hR) fun _ s' t' hR' => ?_
    exact ih (fun b hb => h b (List.mem_cons_of_mem a hb)) hR'

theorem mapM {f g : α → Expanding β} {as : List α}
    (h : ∀ a ∈ as, ∀ s t, R s t → Follows R (f a) s (g a) t) (hR : R s t) :
    Follows R (as.mapM f) s (as.mapM g) t := by
  induction as generalizing s t with
  | nil => exact pure hR []
  | cons a as ih =>
    rw [List.mapM_cons, List.mapM_cons]
    refine bind (h a List.mem_cons_self s t hR) fun b s' t' hR' => ?_
    refine bind (ih (fun b hb => h b (List.mem_cons_of_mem a hb)) hR') fun bs s'' t'' hR'' => ?_
    exact pure hR'' (b :: bs)

end Follows

/-! ### Inert rules -/

/-- The action leaves the shared context as it is. -/
def Action.LeavesContext {α : Type} (action : Action α) : Prop :=
  ∀ c, (action.perform c).2 = c

/-- The rule includes nothing, and composing its value leaves the shared context as it is in every
cell. -/
structure RuleOf.Inert (kit : Toolkit) (declaration : Rule) : Prop where
  /-- The rule includes nothing. -/
  property : declaration.property ≠ "@use"
  /-- The value leaves the context. -/
  value : ∀ cell, (groupTexts kit.functions cell declaration.value).LeavesContext

/-- The states agree on all that a second pass reads. -/
structure Unmoved (s s' : Expansion) : Prop where
  discovering : s'.discovering = s.discovering
  composed : s'.composed = s.composed
  keyframes : s'.keyframes = s.keyframes
  history : s'.history = s.history
  context : s'.context = s.context

namespace Unmoved

variable {s s₁ s' : Expansion}

theorem refl (s : Expansion) : Unmoved s s := ⟨rfl, rfl, rfl, rfl, rfl⟩

theorem trans (h : Unmoved s s₁) (h' : Unmoved s₁ s') : Unmoved s s' :=
  ⟨h'.discovering.trans h.discovering, h'.composed.trans h.composed,
    h'.keyframes.trans h.keyframes, h'.history.trans h.history, h'.context.trans h.context⟩

/-- Declarations, features and grids do not matter for a second pass. -/
theorem apply (s : Expansion) {c : Change} (hdefine : ∀ k, c ≠ .define k)
    (hbegin : ∀ id, c ≠ .begin id) : Unmoved s (s.apply c) := by
  cases c with
  | define k => exact absurd rfl (hdefine k)
  | begin id => exact absurd rfl (hbegin id)
  | note kind => cases kind <;> exact ⟨rfl, rfl, rfl, rfl, rfl⟩
  | cellGrid size sizing =>
    rw [Expansion.apply, Expansion.setCellGrid]
    split <;> exact ⟨rfl, rfl, rfl, rfl, rfl⟩
  | _ => exact ⟨rfl, rfl, rfl, rfl, rfl⟩

theorem push (s : Expansion) (selector text : String) : Unmoved s (s.push selector text) :=
  apply s (c := .declare selector text) (by simp) (by simp)

theorem gridChanges (s : Expansion) (selector : Option String) (property value : String) :
    Unmoved s (s.applyAll (gridChanges selector property value)) := by
  unfold GridStyle.gridChanges
  split
  · exact apply s (by split <;> simp) (by split <;> simp)
  · exact refl s

end Unmoved

section Inert

variable {kit : Toolkit} {cell : Cell} {s s' : Expansion}

open Expanding

theorem unmoved_composeRule {declaration : Rule} (hinert : declaration.Inert kit)
    {selector : Option String} {text : String}
    (h : (composeRule kit cell selector declaration).perform s = (.ok text, s')) :
    Unmoved s s' := by
  obtain ⟨texts, c, hc, -, rfl⟩ := (perform_composeRule_ok kit cell hinert.property).1 h
  obtain rfl : s.context = c := by
    have hleaves := hinert.value cell s.context
    rw [hc] at hleaves
    exact hleaves.symm
  rw [Expansion.withContext_context]
  exact (Unmoved.apply s (by simp) (by simp)).trans (Unmoved.gridChanges _ _ _ _)

theorem unmoved_expandRules {styles : List Rule} (hinert : ∀ r ∈ styles, r.Inert kit)
    {selector : String} (h : (expandRules kit cell selector styles).perform s = (.ok (), s')) :
    Unmoved s s' := by
  induction styles generalizing s with
  | nil =>
    rw [expandRules, perform_pure_ok] at h
    exact h.2 ▸ Unmoved.refl s
  | cons declaration rest ih =>
    rw [List.forall_mem_cons] at hinert
    rw [expandRules, perform_bind_ok] at h
    obtain ⟨text, s₁, hrule, hrest⟩ := h
    rw [perform_modify_bind] at hrest
    have hpush := (unmoved_composeRule hinert.1 hrule).trans (Unmoved.push s₁ selector text)
    exact hpush.trans (ih hinert.2 hrest)

theorem unmoved_parts {styles : List Rule} (hinert : ∀ r ∈ styles, r.Inert kit) {special : Bool}
    {parts : List String}
    (h : (parts.forM fun part =>
      expandRules kit cell (partSelector cell special part) styles).perform s =
        (.ok PUnit.unit, s')) : Unmoved s s' := by
  induction parts generalizing s with
  | nil => exact perform_forM_nil_ok.1 h ▸ Unmoved.refl s
  | cons part rest ih =>
    rw [perform_forM_cons, perform_bind_ok] at h
    obtain ⟨_, s₁, hpart, hrest⟩ := h
    exact (unmoved_expandRules hinert hpart).trans (ih hrest)

end Inert

/-! ### The two runs -/

/-- On the left a run without a discovery, on the right one that comes after the discovery that
left the state `first`. -/
structure AfterDiscovery (tree : List Token) (first s t : Expansion) : Prop where
  /-- Besides the same blocks, those of the discovery are composed. -/
  composed : ∀ id, id ∈ t.composed ↔ id ∈ first.composed ∨ id ∈ s.composed
  /-- Keyframes have different names. -/
  nodup : s.keyframes.names.Nodup
  /-- They are those of the tree. -/
  registered : ∀ k ∈ s.keyframes.definitions, .keyframes k.name k.steps ∈ tree
  /-- The same keyframes are registered, but those of the discovery come first. -/
  keyframes : t.keyframes = first.keyframes.registerAll s.keyframes.definitions
  /-- The visits are the same. -/
  history : t.history = s.history
  /-- The context is the same. -/
  context : t.context = s.context

/-- The two runs while a cell is walked or keyframes are composed. -/
structure WalkAfterDiscovery (tree : List Token) (first s t : Expansion) : Prop
    extends AfterDiscovery tree first s t where
  /-- Neither looks for a grid. -/
  discovering : s.discovering = false ∧ t.discovering = false

namespace WalkAfterDiscovery

variable {tree : List Token} {first s t s' t' : Expansion}

theorem congr (h : WalkAfterDiscovery tree first s t) (hs : Unmoved s s') (ht : Unmoved t t') :
    WalkAfterDiscovery tree first s' t' := by
  refine ⟨⟨?_, ?_, ?_, ?_, ?_, ?_⟩, ?_⟩
  · rw [hs.composed, ht.composed]
    exact h.composed
  · rw [hs.keyframes]
    exact h.nodup
  · rw [hs.keyframes]
    exact h.registered
  · rw [hs.keyframes, ht.keyframes]
    exact h.keyframes
  · rw [hs.history, ht.history]
    exact h.history
  · rw [hs.context, ht.context]
    exact h.context
  · rw [hs.discovering, ht.discovering]
    exact h.discovering

/-- Both runs register the same definition of the tree. -/
theorem define (h : WalkAfterDiscovery tree first s t) {k : Keyframes}
    (hk : .keyframes k.name k.steps ∈ tree) :
    WalkAfterDiscovery tree first (s.apply (.define k)) (t.apply (.define k)) := by
  refine ⟨⟨h.composed, KeyframeStore.nodup_names_register h.nodup k, fun k' hk' => ?_, ?_,
    h.history, h.context⟩, h.discovering⟩
  · have hk' : k' ∈ (s.keyframes.registerAll [k]).definitions := hk'
    obtain hold | hnew := KeyframeStore.mem_definitions_registerAll hk'
    · exact h.registered k' hold
    · rw [List.mem_singleton] at hnew
      exact hnew ▸ hk
  · change t.keyframes.register k = _
    rw [h.keyframes]
    exact (KeyframeStore.registerAll_definitions_register first.keyframes k).symm

/-- Both runs compose the same special block. -/
theorem begin (h : WalkAfterDiscovery tree first s t) (id : Nat) :
    WalkAfterDiscovery tree first (s.apply (.begin id)) (t.apply (.begin id)) := by
  refine ⟨⟨fun other => ?_, h.nodup, h.registered, h.keyframes, h.history, h.context⟩,
    h.discovering⟩
  change other ∈ id :: t.composed ↔ other ∈ first.composed ∨ other ∈ id :: s.composed
  rw [List.mem_cons, List.mem_cons, h.composed, or_left_comm]

/-- Only the run without a discovery composes a special block that the discovery has composed. -/
theorem begin_left (h : WalkAfterDiscovery tree first s t) {id : Nat}
    (hid : id ∈ first.composed) : WalkAfterDiscovery tree first (s.apply (.begin id)) t := by
  refine ⟨⟨fun other => ?_, h.nodup, h.registered, h.keyframes, h.history, h.context⟩,
    h.discovering⟩
  change other ∈ t.composed ↔ other ∈ first.composed ∨ other ∈ id :: s.composed
  rw [List.mem_cons, h.composed]
  constructor
  · exact Or.imp_right .inr
  · rintro (hfirst | rfl | hold)
    · exact .inl hfirst
    · exact .inl hid
    · exact .inr hold

/-- Actions on the context are the same in both runs. -/
theorem follows_act (h : WalkAfterDiscovery tree first s t) {α : Type} (action : Action α) :
    Follows (WalkAfterDiscovery tree first) (Expanding.act action) s (Expanding.act action) t := by
  intro a s' hs
  obtain ⟨c, hc, rfl⟩ := Expanding.perform_act_ok.1 hs
  rw [← h.context] at hc
  exact ⟨t.withContext c, Expanding.perform_act_ok.2 ⟨c, hc, rfl⟩,
    ⟨h.composed, h.nodup, h.registered, h.keyframes, h.history, rfl⟩, h.discovering⟩

end WalkAfterDiscovery

section Walk

variable {kit : Toolkit} {tree : List Token} {first : Expansion} {cell : Cell}

theorem follows_composeRule_of_ne {s t : Expansion} (h : WalkAfterDiscovery tree first s t)
    (selector : Option String) {declaration : Rule} (hne : declaration.property ≠ "@use") :
    Follows (WalkAfterDiscovery tree first) (composeRule kit cell selector declaration) s
      (composeRule kit cell selector declaration) t := by
  rw [Expanding.composeRule_eq kit cell selector hne]
  refine Follows.bind (h.follows_act _) fun texts s₁ t₁ h₁ => ?_
  refine Follows.bind (Follows.modify (h₁.congr (Unmoved.apply s₁ ?_ ?_) (Unmoved.apply t₁ ?_ ?_)))
    fun _ s₂ t₂ h₂ => ?_
  · simp
  · simp
  · simp
  · simp
  · intro text s' hs
    rw [Expanding.perform_composeProperty, Prod.mk.injEq] at hs
    obtain ⟨hs, rfl⟩ := hs
    rw [Expanding.perform_composeProperty, hs]
    exact ⟨_, rfl, h₂.congr (Unmoved.gridChanges s₂ _ _ _) (Unmoved.gridChanges t₂ _ _ _)⟩

/-- The rules of all blocks that the discovery has composed are inert. -/
def InertBlocks (kit : Toolkit) (tree : List Token) (first : Expansion) : Prop :=
  ∀ id selector styles, .pseudo id selector styles ∈ tree → id ∈ first.composed →
    ∀ r ∈ styles, r.Inert kit

namespace InertBlocks

/-- A block that the discovery has composed is skipped. Nothing of what composing it would do
matters. -/
theorem follows_skip (hinert : InertBlocks kit tree first) {s t : Expansion}
    (h : WalkAfterDiscovery tree first s t) {id : Nat} {selector : String} {styles : List Rule}
    (hmem : .pseudo id selector styles ∈ tree) (hid : id ∈ first.composed) :
    Follows (WalkAfterDiscovery tree first)
      (expandToken kit cell false (.pseudo id selector styles)) s
      (expandToken kit cell false (.pseudo id selector styles)) t := by
  intro u s' hs
  refine ⟨t, ?_, ?_⟩
  -- On the right the block counts as composed and nothing happens.
  · rw [Expanding.perform_expandToken_pseudo, if_pos ((h.composed id).2 (.inl hid))]
  rw [Expanding.perform_expandToken_pseudo] at hs
  split at hs
  · rw [Prod.mk.injEq] at hs
    exact hs.2 ▸ h
  · -- On the left it is composed now, which moves nothing that the right run has.
    obtain ⟨_, s₁, hbegin, hparts⟩ := Expanding.perform_bind_ok.1 hs
    have hstyles := hinert id selector styles hmem hid
    have hbegun : WalkAfterDiscovery tree first s₁ t := by
      split at hbegin
      · rw [beginSpecial, Expanding.perform_modify_ok] at hbegin
        exact hbegin ▸ h.begin_left hid
      · rw [Expanding.perform_pure_ok] at hbegin
        exact hbegin.2 ▸ h
    exact hbegun.congr (unmoved_parts hstyles hparts) (Unmoved.refl t)

-- By the recursion of the walk. Both runs take the same steps, with one exception: a block that the
-- discovery has composed.
mutual

/-- A walk after a discovery follows the walk without one. -/
theorem follows_expandTokens (hinert : InertBlocks kit tree first) :
    ∀ (tokens : List Token), (∀ t ∈ Token.within tokens, t ∈ tree) → ∀ {s t : Expansion},
      WalkAfterDiscovery tree first s t →
      Follows (WalkAfterDiscovery tree first) (expandTokens kit cell false tokens) s
        (expandTokens kit cell false tokens) t
  | [], _, s, t, h => by
    rw [expandTokens]
    exact Follows.pure h ()
  | token :: rest, ha, s, t, h => by
    rw [Token.forall_within_cons] at ha
    have hunknown : ∀ u : Expansion, ¬ (false = true ∧ u.grid.isSome) :=
      fun u hknown => absurd hknown.1 Bool.false_ne_true
    unfold Follows
    rw [Expanding.perform_expandTokens_cons kit cell (hunknown s),
      Expanding.perform_expandTokens_cons kit cell (hunknown t)]
    exact Follows.bind (hinert.follows_expandToken token ha.1 ha.2.1 h)
      fun _ s' t' h' => hinert.follows_expandTokens rest ha.2.2 h'

theorem follows_expandToken (hinert : InertBlocks kit tree first) :
    ∀ (token : Token), token ∈ tree → (∀ t ∈ token.inside, t ∈ tree) → ∀ {s t : Expansion},
      WalkAfterDiscovery tree first s t →
      Follows (WalkAfterDiscovery tree first) (expandToken kit cell false token) s
        (expandToken kit cell false token) t
  | .rule declaration, _, hin, s, t, h => by
    rw [expandToken]
    refine Follows.bind (hinert.follows_composeRule declaration _ hin h) fun text s' t' h' => ?_
    exact Follows.modify (h'.congr (Unmoved.push s' _ text) (Unmoved.push t' _ text))
  | .pseudo id selector styles, ha, hin, s, t, h => by
    by_cases hid : id ∈ first.composed
    · exact hinert.follows_skip h ha hid
    · -- The runs agree on whether the block is composed already.
      have hsame : id ∈ t.composed ↔ id ∈ s.composed := by
        rw [h.composed, or_iff_right hid]
      unfold Follows
      rw [Expanding.perform_expandToken_pseudo, Expanding.perform_expandToken_pseudo,
        if_congr hsame rfl rfl]
      split
      · exact Follows.pure h ()
      · refine Follows.bind ?_ fun _ s' t' h' => Follows.forM (fun part _ s t h => ?_) h'
        · split
          · exact Follows.modify (h.begin id)
          · exact Follows.pure h ()
        · exact hinert.follows_expandRules styles hin _ h
  | .condition name arguments styles, _, hin, s, t, h => by
    rw [expandToken]
    refine Follows.bind (h.follows_act _) fun b s' t' h' => ?_
    split
    · exact hinert.follows_expandTokens styles hin h'
    · exact Follows.pure h' ()
  | .keyframes name steps, ha, _, s, t, h => by
    rw [expandToken]
    exact Follows.modify (h.define ha)

theorem follows_expandRules (hinert : InertBlocks kit tree first) :
    ∀ (styles : List (RuleOf Token)), (∀ t ∈ Token.withinRules styles, t ∈ tree) →
      ∀ (selector : String) {s t : Expansion},
      WalkAfterDiscovery tree first s t →
        Follows (WalkAfterDiscovery tree first) (expandRules kit cell selector styles) s
          (expandRules kit cell selector styles) t
  | [], _, selector, s, t, h => by
    rw [expandRules]
    exact Follows.pure h ()
  | declaration :: rest, ha, selector, s, t, h => by
    rw [Token.forall_withinRules_cons] at ha
    rw [expandRules]
    refine Follows.bind (hinert.follows_composeRule declaration _ ha.2.1 h) fun text s₁ t₁ h₁ => ?_
    refine Follows.bind (Follows.modify (h₁.congr (Unmoved.push s₁ selector text)
      (Unmoved.push t₁ selector text))) fun _ s₂ t₂ h₂ => ?_
    exact hinert.follows_expandRules rest ha.2.2 selector h₂

theorem follows_composeRule (hinert : InertBlocks kit tree first) :
    ∀ (declaration : RuleOf Token) (selector : Option String),
      (∀ t ∈ Token.insideRule declaration, t ∈ tree) → ∀ {s t : Expansion},
      WalkAfterDiscovery tree first s t →
        Follows (WalkAfterDiscovery tree first) (composeRule kit cell selector declaration) s
          (composeRule kit cell selector declaration) t
  | ⟨property, value, styles⟩, selector, hin, s, t, h => by
    by_cases huse : property = "@use"
    · rw [Expanding.composeRule_inclusion kit cell selector huse]
      refine Follows.bind (h.follows_act _) fun _ s₁ t₁ h₁ => Follows.get_bind ?_
      -- Neither included walk looks for a grid.
      rw [h₁.discovering.1, h₁.discovering.2]
      exact Follows.bind (hinert.follows_expandTokens styles hin h₁)
        fun _ s₂ t₂ h₂ => Follows.pure h₂ ""
    · exact follows_composeRule_of_ne h selector huse

end

theorem follows_keyframesBody (hinert : InertBlocks kit tree first) {keyframes : Keyframes}
    (ha : ∀ t ∈ Token.withinSteps keyframes.steps, t ∈ tree) {s t : Expansion}
    (h : WalkAfterDiscovery tree first s t) :
    Follows (WalkAfterDiscovery tree first) (keyframesBody kit cell keyframes) s
      (keyframesBody kit cell keyframes) t := by
  unfold keyframesBody
  refine Follows.bind (Follows.mapM (fun step hstep s t h => ?_) h)
    fun texts s' t' h' => Follows.pure h' _
  unfold stepText
  refine Follows.bind (Follows.mapM (fun declaration hdeclaration s t h => ?_) h)
    fun texts s' t' h' => Follows.pure h' _
  have hin := Token.forall_withinRules.1 (Token.forall_withinSteps.1 ha step hstep)
    declaration hdeclaration
  exact hinert.follows_composeRule declaration none hin.2 h

end InertBlocks

end Walk

end GridStyle
