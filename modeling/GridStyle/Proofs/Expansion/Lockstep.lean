import GridStyle.Proofs.Expansion.Step
import GridStyle.Proofs.TokenTree

/-!
# Walks in Lockstep

Two walks over the same tokens from different states make the same changes as long as the states
agree on what the walk reads: the outcome of values and predicates, the flags of the initial walk,
and which special blocks are composed. `Coupling` collects what a relation of states needs for
that, and `Coupling.inStep_expandTokens` is the resulting law: the walks have the same outcome,
success or failure, and leave related states.

A relation that implies equality turns the law into one about a single walk: what every change
keeps (`Kept`) holds at the end (`Kept.expandTokens`).
-/

namespace GridStyle

/-- A relation between the states of two runs. -/
abbrev StateRelation := Expansion → Expansion → Prop

/-- Two steps from two states have the same outcome and leave related states. -/
def InStep {α : Type} (R : StateRelation) (x : Expanding α) (s : Expansion) (y : Expanding α)
    (t : Expansion) : Prop :=
  (x.perform s).1 = (y.perform t).1 ∧ R (x.perform s).2 (y.perform t).2

namespace InStep

open Expanding

variable {α β : Type} {R : StateRelation} {s t : Expansion}

theorem pure (h : R s t) (a : α) : InStep R (pure a) s (pure a) t := ⟨rfl, h⟩

theorem modify {f g : Expansion → Expansion} (h : R (f s) (g t)) :
    InStep R (modify f) s (modify g) t := ⟨rfl, h⟩

theorem mono {R' : StateRelation} {x y : Expanding α} (h : InStep R x s y t)
    (hR : ∀ {s t}, R s t → R' s t) : InStep R' x s y t := ⟨h.1, hR h.2⟩

/-- Composite steps run in step if their first parts do and their second parts do so after first
parts that succeed. -/
theorem bind_of_ok {R' : StateRelation} {x y : Expanding α} {f g : α → Expanding β}
    (hR : ∀ {s t}, R s t → R' s t) (hx : InStep R x s y t)
    (hf : ∀ a s' t', x.perform s = (.ok a, s') → R s' t' → InStep R' (f a) s' (g a) t') :
    InStep R' (x >>= f) s (y >>= g) t := by
  obtain ⟨houtcome, hstate⟩ := hx
  unfold InStep
  rw [perform_bind, perform_bind]
  rcases hxs : x.perform s with ⟨outcome, s'⟩
  rcases hyt : y.perform t with ⟨outcome', t'⟩
  rw [hxs, hyt] at houtcome hstate
  -- Both first parts succeed or both fail.
  obtain rfl : outcome = outcome' := houtcome
  cases outcome with
  | ok a => exact hf a s' t' hxs hstate
  | error e => exact ⟨rfl, hR hstate⟩

/-- Composite steps run in step if their first parts do and their second parts do so from all
states that may lie in between. -/
theorem bind {x y : Expanding α} {f g : α → Expanding β} (hx : InStep R x s y t)
    (hf : ∀ a s' t', R s' t' → InStep R (f a) s' (g a) t') :
    InStep R (x >>= f) s (y >>= g) t := bind_of_ok id hx fun a s' t' _ => hf a s' t'

/-- Steps that read the state first. -/
theorem get_bind {f g : Expansion → Expanding α} (h : InStep R (f s) s (g t) t) :
    InStep R (get >>= f) s (get >>= g) t := h

/-- Running a step for the elements of a list keeps in step if every single run does. -/
theorem forM {f g : α → Expanding PUnit} {as : List α}
    (h : ∀ a ∈ as, ∀ s t, R s t → InStep R (f a) s (g a) t) (hR : R s t) :
    InStep R (as.forM f) s (as.forM g) t := by
  induction as generalizing s t with
  | nil => exact pure hR PUnit.unit
  | cons a as ih =>
    refine bind (h a List.mem_cons_self s t hR) fun _ s' t' hR' => ?_
    exact ih (fun b hb => h b (List.mem_cons_of_mem a hb)) hR'

/-- Running a step for the elements of a list and collecting the outcomes keeps in step if every
single run does. -/
theorem mapM {f g : α → Expanding β} {as : List α}
    (h : ∀ a ∈ as, ∀ s t, R s t → InStep R (f a) s (g a) t) (hR : R s t) :
    InStep R (as.mapM f) s (as.mapM g) t := by
  induction as generalizing s t with
  | nil => exact pure hR []
  | cons a as ih =>
    rw [List.mapM_cons, List.mapM_cons]
    refine bind (h a List.mem_cons_self s t hR) fun b s' t' hR' => ?_
    refine bind (ih (fun b hb => h b (List.mem_cons_of_mem a hb)) hR') fun bs s'' t'' hR'' => ?_
    exact pure hR'' (b :: bs)

end InStep

/-- The change is one that a walk over admitted tokens makes for a cell. -/
def Change.From (cell : Cell) (admitted : Token → Prop) : Change → Prop
  | .declare selector _ =>
    selector = Selector.ofCell cell "" ∨
      ∃ id list styles, admitted (.pseudo id list styles) ∧
        ∃ part ∈ selectorParts (Selector.normalize list),
          selector = partSelector cell (Selector.isSpecial (Selector.normalize list)) part
  | .define keyframes => admitted (.keyframes keyframes.name keyframes.steps)
  | .note _ => True
  | .begin id =>
    ∃ list styles, admitted (.pseudo id list styles) ∧
      Selector.isSpecial (Selector.normalize list) = true
  | .hostGrid size | .cellGrid size _ | .soughtGrid size =>
    ∃ declaration, admitted (.rule declaration) ∧ declaration.property = "@grid" ∧
      ∃ value, size = (Directive.readGrid true value).1

/-- A relation of states that agree on all that a walk over admitted tokens reads, and that every
change of such a walk keeps. -/
structure Coupling (kit : Toolkit) (cell : Cell) (initial : Bool) (admitted : Token → Prop)
    (R : StateRelation) : Prop where
  /-- Both walks know which walk they are. -/
  discovering : ∀ {s t}, R s t → s.discovering = initial ∧ t.discovering = initial
  /-- Initial walks have found the same grid. -/
  grid : initial = true → ∀ {s t}, R s t → s.grid = t.grid ∧ s.hostGrid = t.hostGrid
  /-- The same blocks are composed. -/
  composed : ∀ {s t id list styles}, R s t → admitted (.pseudo id list styles) →
    (id ∈ s.composed ↔ id ∈ t.composed)
  /-- Values have the same texts. -/
  value : ∀ {s t declaration}, R s t → admitted (.rule declaration) →
    InStep R (Expanding.act (groupTexts kit.functions cell declaration.value)) s
      (Expanding.act (groupTexts kit.functions cell declaration.value)) t
  /-- Predicates agree. -/
  holds : ∀ {s t name arguments styles}, R s t → admitted (.condition name arguments styles) →
    InStep R (Expanding.act (holds kit cell name arguments)) s
      (Expanding.act (holds kit cell name arguments)) t
  /-- Changes keep the relation. -/
  change : ∀ {s t} {c : Change}, R s t → c.From cell admitted → R (s.apply c) (t.apply c)

namespace Coupling

variable {kit : Toolkit} {cell : Cell} {initial : Bool} {admitted : Token → Prop}
  {R : StateRelation}

/-- A rule that includes nothing keeps in step. -/
theorem inStep_composeRule_of_ne (h : Coupling kit cell initial admitted R) {s t : Expansion}
    (hR : R s t) (selector : Option String) {declaration : Rule}
    (ha : admitted (.rule declaration)) (hne : declaration.property ≠ "@use") :
    InStep R (composeRule kit cell selector declaration) s
      (composeRule kit cell selector declaration) t := by
  rw [Expanding.composeRule_eq kit cell selector hne]
  refine InStep.bind (h.value hR ha) fun texts s₁ t₁ hR₁ => ?_
  refine InStep.bind (InStep.modify (h.change hR₁ trivial)) fun _ s₂ t₂ hR₂ => ?_
  unfold InStep
  rw [Expanding.perform_composeProperty, Expanding.perform_composeProperty]
  refine ⟨rfl, ?_⟩
  unfold gridChanges
  split
  · next hgrid =>
    refine h.change hR₂ ?_
    split <;> exact ⟨declaration, ha, hgrid, _, rfl⟩
  · exact hR₂

/-- The search in a block for the host keeps in step. -/
theorem inStep_seekGrids (h : Coupling kit cell initial admitted R) :
    ∀ (styles : List Rule), (∀ r ∈ styles, admitted (.rule r)) → ∀ {s t : Expansion}, R s t →
      InStep R (seekGrids kit cell styles) s (seekGrids kit cell styles) t
  | [], _, s, t, hR => InStep.pure hR ()
  | declaration :: rest, ha, s, t, hR => by
    rw [List.forall_mem_cons] at ha
    rw [seekGrids]
    split
    · next hkind =>
      rw [PropertyKind.ofName_eq_grid_iff] at hkind
      refine InStep.bind (h.value hR ha.1) fun texts s₁ t₁ hR₁ => ?_
      refine InStep.bind (InStep.modify ?_)
        fun _ s₂ t₂ hR₂ => h.inStep_seekGrids rest ha.2 hR₂
      exact h.change (c := .soughtGrid _) hR₁ ⟨declaration, ha.1, hkind, _, rfl⟩
    · exact h.inStep_seekGrids rest ha.2 hR

mutual

/-- The search for a grid of the host keeps in step. -/
theorem inStep_seekHostGrid (h : Coupling kit cell true admitted R) :
    ∀ (tokens : List Token), (∀ t ∈ Token.within tokens, admitted t) → ∀ {s t : Expansion},
      R s t → InStep R (seekHostGrid kit cell tokens) s (seekHostGrid kit cell tokens) t
  | [], _, s, t, hR => by
    rw [seekHostGrid]
    exact InStep.pure hR ()
  | token :: rest, ha, s, t, hR => by
    rw [Token.forall_within_cons] at ha
    unfold InStep
    rw [Expanding.perform_seekHostGrid_cons, Expanding.perform_seekHostGrid_cons,
      (h.grid rfl hR).2]
    split
    · exact ⟨rfl, hR⟩
    · exact InStep.bind (h.inStep_seekToken token ha.1 ha.2.1 hR)
        fun _ s' t' hR' => h.inStep_seekHostGrid rest ha.2.2 hR'

/-- The search in one token keeps in step. -/
theorem inStep_seekToken (h : Coupling kit cell true admitted R) :
    ∀ (token : Token), admitted token → (∀ t ∈ token.inside, admitted t) → ∀ {s t : Expansion},
      R s t → InStep R (seekToken kit cell token) s (seekToken kit cell token) t
  | .rule _, _, _, s, t, hR => InStep.pure hR ()
  | .keyframes _ _, _, _, s, t, hR => InStep.pure hR ()
  | .pseudo id selector styles, _, hin, s, t, hR => by
    rw [seekToken]
    -- Only a block for the host is searched.
    split
    · exact h.inStep_seekGrids styles (Token.forall_rules_of_forall_withinRules hin) hR
    · exact InStep.pure hR ()
  | .condition name arguments styles, ha, hin, s, t, hR => by
    rw [seekToken]
    refine InStep.bind (h.holds hR ha) fun b s' t' hR' => ?_
    split
    · exact h.inStep_seekHostGrid styles hin hR'
    · exact InStep.pure hR' ()

end

mutual

/-- The walk over tokens keeps in step. -/
theorem inStep_expandTokens (h : Coupling kit cell initial admitted R) :
    ∀ (tokens : List Token), (∀ t ∈ Token.within tokens, admitted t) → ∀ {s t : Expansion},
      R s t → InStep R (expandTokens kit cell initial tokens) s
        (expandTokens kit cell initial tokens) t
  | [], _, s, t, hR => by
    rw [expandTokens]
    exact InStep.pure hR ()
  | token :: rest, ha, s, t, hR => by
    have ha' := Token.forall_within_cons.1 ha
    unfold InStep
    by_cases hknown : initial = true ∧ s.grid.isSome
    · -- Both walks know a grid, and both go on as a search or are over.
      obtain rfl : initial = true := hknown.1
      obtain ⟨hgrid, hhost⟩ := h.grid rfl hR
      rw [Expanding.perform_expandTokens_known kit cell hknown,
        Expanding.perform_expandTokens_known kit cell ⟨rfl, hgrid ▸ hknown.2⟩, hhost]
      split
      · exact ⟨rfl, hR⟩
      · exact h.inStep_seekHostGrid (token :: rest) ha hR
    · -- Neither walk knows a grid, so both compose the token.
      have hknown' : ¬ (initial = true ∧ t.grid.isSome) := by
        rintro ⟨rfl, hsome⟩
        exact hknown ⟨rfl, (h.grid rfl hR).1 ▸ hsome⟩
      rw [Expanding.perform_expandTokens_cons kit cell hknown,
        Expanding.perform_expandTokens_cons kit cell hknown']
      exact InStep.bind (h.inStep_expandToken token ha'.1 ha'.2.1 hR)
        fun _ s' t' hR' => h.inStep_expandTokens rest ha'.2.2 hR'

/-- The walk over one token keeps in step. -/
theorem inStep_expandToken (h : Coupling kit cell initial admitted R) :
    ∀ (token : Token), admitted token → (∀ t ∈ token.inside, admitted t) → ∀ {s t : Expansion},
      R s t → InStep R (expandToken kit cell initial token) s
        (expandToken kit cell initial token) t
  | .rule declaration, ha, hin, s, t, hR => by
    rw [expandToken]
    refine InStep.bind (h.inStep_composeRule declaration _ ha hin hR) fun text s' t' hR' => ?_
    exact InStep.modify (h.change (c := .declare _ text) hR' (.inl rfl))
  | .pseudo id selector styles, ha, hin, s, t, hR => by
    unfold InStep
    rw [Expanding.perform_expandToken_pseudo, Expanding.perform_expandToken_pseudo,
      if_congr (h.composed hR ha) rfl rfl]
    split
    · exact ⟨rfl, hR⟩
    · -- The block begins, and then the rules are composed for every part.
      refine InStep.bind ?_ fun _ s' t' hR' => InStep.forM (fun part hpart s t hR => ?_) hR'
      · split
        · next hspecial =>
          exact InStep.modify (h.change (c := .begin id) hR ⟨selector, styles, ha, hspecial⟩)
        · exact InStep.pure hR ()
      · refine h.inStep_expandRules styles hin _ (fun text => ?_) hR
        exact .inr ⟨id, selector, styles, ha, part, hpart, rfl⟩
  | .condition name arguments styles, ha, hin, s, t, hR => by
    rw [expandToken]
    refine InStep.bind (h.holds hR ha) fun b s' t' hR' => ?_
    split
    · exact h.inStep_expandTokens styles hin hR'
    · exact InStep.pure hR' ()
  | .keyframes name steps, ha, _, s, t, hR => by
    rw [expandToken]
    exact InStep.modify (h.change (c := .define ⟨name, steps⟩) hR ha)

/-- Composing rules for a selector keeps in step. -/
theorem inStep_expandRules (h : Coupling kit cell initial admitted R) :
    ∀ (styles : List (RuleOf Token)), (∀ t ∈ Token.withinRules styles, admitted t) →
      ∀ (selector : String), (∀ text, Change.From cell admitted (.declare selector text)) →
        ∀ {s t : Expansion}, R s t → InStep R (expandRules kit cell selector styles) s
          (expandRules kit cell selector styles) t
  | [], _, selector, _, s, t, hR => by
    rw [expandRules]
    exact InStep.pure hR ()
  | declaration :: rest, ha, selector, hselector, s, t, hR => by
    rw [Token.forall_withinRules_cons] at ha
    rw [expandRules]
    refine InStep.bind (h.inStep_composeRule declaration _ ha.1 ha.2.1 hR)
      fun text s₁ t₁ hR₁ => ?_
    refine InStep.bind (InStep.modify (h.change (c := .declare selector text) hR₁
      (hselector text))) fun _ s₂ t₂ hR₂ => ?_
    exact h.inStep_expandRules rest ha.2.2 selector hselector hR₂

/-- Composing a rule keeps in step. -/
theorem inStep_composeRule (h : Coupling kit cell initial admitted R) :
    ∀ (declaration : RuleOf Token) (selector : Option String), admitted (.rule declaration) →
      (∀ t ∈ Token.insideRule declaration, admitted t) → ∀ {s t : Expansion}, R s t →
        InStep R (composeRule kit cell selector declaration) s
          (composeRule kit cell selector declaration) t
  | ⟨property, value, styles⟩, selector, ha, hin, s, t, hR => by
    by_cases huse : property = "@use"
    · rw [Expanding.composeRule_inclusion kit cell selector huse]
      refine InStep.bind (h.value hR ha) fun _ s₁ t₁ hR₁ => ?_
      -- Both included walks are initial ones, or none is.
      obtain ⟨hs, ht⟩ := h.discovering hR₁
      refine InStep.get_bind ?_
      rw [hs, ht]
      exact InStep.bind (h.inStep_expandTokens styles hin hR₁)
        fun _ s₂ t₂ hR₂ => InStep.pure hR₂ ""
    · exact h.inStep_composeRule_of_ne hR selector ha huse

end

/-- Composing the body of keyframes keeps in step. -/
theorem inStep_keyframesBody (h : Coupling kit cell initial admitted R) {keyframes : Keyframes}
    (ha : ∀ t ∈ Token.withinSteps keyframes.steps, admitted t) {s t : Expansion} (hR : R s t) :
    InStep R (keyframesBody kit cell keyframes) s (keyframesBody kit cell keyframes) t := by
  unfold keyframesBody
  refine InStep.bind (InStep.mapM (fun step hstep s t hR => ?_) hR)
    fun texts s' t' hR' => InStep.pure hR' _
  unfold stepText
  refine InStep.bind (InStep.mapM (fun declaration hdeclaration s t hR => ?_) hR)
    fun texts s' t' hR' => InStep.pure hR' _
  have hin := Token.forall_withinRules.1 (Token.forall_withinSteps.1 ha step hstep)
    declaration hdeclaration
  exact h.inStep_composeRule declaration none hin.1 hin.2 hR

end Coupling

/-- A property of states that changes of a walk over admitted tokens keep, and changes of the
shared context. -/
structure Kept (cell : Cell) (initial : Bool) (admitted : Token → Prop) (I : Expansion → Prop) :
    Prop where
  /-- The walk knows which walk it is. -/
  discovering : ∀ {s}, I s → s.discovering = initial
  /-- The shared context does not matter. -/
  context : ∀ {s} (c : Context), I s → I (s.withContext c)
  /-- Changes keep the property. -/
  change : ∀ {s} {c : Change}, I s → c.From cell admitted → I (s.apply c)

namespace Kept

variable {kit : Toolkit} {cell : Cell} {initial : Bool} {admitted : Token → Prop}
  {I : Expansion → Prop}

/-- What changes keep is kept by a walk that knows which walk it is. -/
theorem of_apply {J : Expansion → Prop} (hcontext : ∀ {s} (c : Context), J s → J (s.withContext c))
    (hchange : ∀ {s} {c : Change}, J s → c.From cell admitted → J (s.apply c)) :
    Kept cell initial admitted fun s => s.discovering = initial ∧ J s :=
  ⟨fun hs => hs.1, fun c hs => ⟨hs.1, hcontext c hs.2⟩,
    fun {s c} hs hc => ⟨(s.discovering_apply c).trans hs.1, hchange hs.2 hc⟩⟩

/-- A walk is in step with itself, and its states have the property. -/
theorem coupling (h : Kept cell initial admitted I) :
    Coupling kit cell initial admitted fun s t => s = t ∧ I s := by
  have hact : ∀ {α : Type} (action : Action α) {s t : Expansion}, s = t ∧ I s →
      InStep (fun s t => s = t ∧ I s) (Expanding.act action) s (Expanding.act action) t := by
    rintro α action s t ⟨rfl, hs⟩
    refine ⟨rfl, rfl, ?_⟩
    rw [Expanding.perform_act]
    exact h.context _ hs
  refine ⟨?_, ?_, ?_, fun hR _ => hact _ hR, fun hR _ => hact _ hR, ?_⟩
  · rintro s t ⟨rfl, hs⟩
    exact ⟨h.discovering hs, h.discovering hs⟩
  · rintro - s t ⟨rfl, -⟩
    exact ⟨rfl, rfl⟩
  · rintro s t id list styles ⟨rfl, -⟩ -
    exact Iff.rfl
  · rintro s t c ⟨rfl, hs⟩ hc
    exact ⟨rfl, h.change hs hc⟩

/-- A walk keeps what its changes keep. -/
theorem expandTokens (h : Kept cell initial admitted I) {tokens : List Token}
    (ha : ∀ t ∈ Token.within tokens, admitted t) {s : Expansion} (hs : I s) :
    I ((GridStyle.expandTokens kit cell initial tokens).perform s).2 :=
  (h.coupling.inStep_expandTokens tokens ha ⟨rfl, hs⟩).2.2

/-- The walk of a token keeps what its changes keep. -/
theorem expandToken (h : Kept cell initial admitted I) {token : Token} (ha : admitted token)
    (hin : ∀ t ∈ token.inside, admitted t) {s : Expansion} (hs : I s) :
    I ((GridStyle.expandToken kit cell initial token).perform s).2 :=
  (h.coupling.inStep_expandToken token ha hin ⟨rfl, hs⟩).2.2

end Kept

end GridStyle
