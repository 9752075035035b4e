import GridStyle.Proofs.Conditions
import GridStyle.Proofs.Expansion.Lockstep
import GridStyle.Proofs.Place
import Mathlib.Data.List.Forall2

/-!
# Trees That Differ in One Place

Two fillings of a place are *exchangeable* in a walk if the walk ends alike at the place itself,
whichever of them stands there. Then whole walks over the two trees end alike
(`Exchange.inStep_expandTokens`), and so does the rendering of keyframes, although the definitions
that the walks register may differ in the place too (`Agree`).
-/

namespace GridStyle

variable {f g : Filling} {admitted : Token → Prop}

/-- The state with other keyframes definitions. -/
def Expansion.withKeyframes (s : Expansion) (keyframes : KeyframeStore) : Expansion :=
  { s with keyframes }

/-- Two keyframes definitions are the same, or two fillings of one. -/
def Exchanged (f g : Filling) (admitted : Token → Prop) (k k' : Keyframes) : Prop :=
  k = k' ∨ ∃ p : TokenPlace, p.fill f = .keyframes k.name k.steps ∧
    p.fill g = .keyframes k'.name k'.steps ∧ ∀ t ∈ (p.fill f).inside, admitted t

/-- Two states agree on all but the keyframes, whose definitions are the same or two fillings of
one. If `defined`, some grid directive was composed before. -/
structure Agree (f g : Filling) (admitted : Token → Prop) (defined : Bool) (s t : Expansion) :
    Prop where
  same : t = s.withKeyframes t.keyframes
  keyframes : List.Forall₂ (Exchanged f g admitted) s.keyframes.definitions t.keyframes.definitions
  defined : defined = true → s.gridDefined = true

/-- States that agree in the midst of a walk. -/
def AgreeIn (f g : Filling) (admitted : Token → Prop) (initial defined : Bool) : StateRelation :=
  fun s t => s.discovering = initial ∧ Agree f g admitted defined s t

theorem Exchanged.name_eq {k k' : Keyframes} (h : Exchanged f g admitted k k') :
    k.name = k'.name := by
  obtain rfl | ⟨p, hf, hg, -⟩ := h
  · rfl
  · -- Only a place in a definition has fillings that are definitions.
    cases p with
    | keyframes name before step rules after =>
      rw [TokenPlace.fill, Token.keyframes.injEq] at hf hg
      exact hf.1.symm.trans hg.1
    | _ => exact Token.noConfusion hf

namespace KeyframeStore

variable {s t : KeyframeStore}

theorem contains_eq_of_forall₂
    (h : List.Forall₂ (Exchanged f g admitted) s.definitions t.definitions) (name : String) :
    s.contains name = t.contains name := by
  rw [contains, contains]
  generalize s.definitions = definitions at h ⊢
  generalize t.definitions = definitions' at h ⊢
  induction h with
  | nil => rfl
  | cons hk _ ih => rw [List.any_cons, List.any_cons, hk.name_eq, ih]

/-- Definitions that are the same or fillings of one are both new, or none is. -/
theorem forall₂_register {k k' : Keyframes}
    (h : List.Forall₂ (Exchanged f g admitted) s.definitions t.definitions)
    (hk : Exchanged f g admitted k k') :
    List.Forall₂ (Exchanged f g admitted) (s.register k).definitions
      (t.register k').definitions := by
  unfold register
  rw [contains_eq_of_forall₂ h, hk.name_eq]
  split
  · exact h
  · exact List.rel_append h (.cons hk .nil)

end KeyframeStore

/-- A change does not look at the keyframes definitions, and only adds to them. -/
theorem Expansion.apply_withKeyframes (s : Expansion) (keyframes : KeyframeStore) (c : Change) :
    (s.withKeyframes keyframes).apply c =
      (s.apply c).withKeyframes ((s.withKeyframes keyframes).apply c).keyframes := by
  cases c with
  | note kind => cases kind <;> rfl
  | cellGrid size sizing =>
    cases hdefined : s.gridDefined <;> simp [apply, setCellGrid, withKeyframes, push, hdefined]
  | _ => rfl

namespace Agree

variable {initial defined : Bool} {s t : Expansion}

/-- Definitions that are the same or fillings of one may be added. -/
theorem define (h : Agree f g admitted defined s t) {k k' : Keyframes}
    (hk : Exchanged f g admitted k k') :
    Agree f g admitted defined (s.apply (.define k)) (t.apply (.define k')) := by
  refine ⟨?_, KeyframeStore.forall₂_register h.keyframes hk, h.defined⟩
  rw [h.same]
  rfl

theorem change (h : Agree f g admitted defined s t) (c : Change) :
    Agree f g admitted defined (s.apply c) (t.apply c) := by
  -- Definitions are added on both sides, and any other change leaves them alone.
  by_cases hdefine : ∃ k, c = .define k
  · obtain ⟨k, rfl⟩ := hdefine
    exact h.define (.inl rfl)
  · rw [not_exists] at hdefine
    refine ⟨?_, ?_, fun hd => Expansion.gridDefined_apply (h.defined hd) c⟩
    · rw [h.same]
      exact Expansion.apply_withKeyframes s _ c
    · rw [Expansion.keyframes_apply s hdefine, Expansion.keyframes_apply t hdefine]
      exact h.keyframes

theorem withContext (h : Agree f g admitted defined s t) (c : Context) :
    Agree f g admitted defined (s.withContext c) (t.withContext c) := by
  refine ⟨?_, h.keyframes, h.defined⟩
  rw [h.same]
  rfl

end Agree

namespace AgreeIn

variable {kit : Toolkit} {cell : Cell} {initial defined : Bool} {s t : Expansion}

theorem act (h : AgreeIn f g admitted initial defined s t) {α : Type} (action : Action α) :
    InStep (AgreeIn f g admitted initial defined) (Expanding.act action) s
      (Expanding.act action) t := by
  have hcontext : t.context = s.context := by rw [h.2.same]; rfl
  refine ⟨?_, ?_⟩
  · rw [Expanding.perform_act, Expanding.perform_act, hcontext]
  · rw [Expanding.perform_act, Expanding.perform_act, hcontext]
    exact ⟨h.1, h.2.withContext _⟩

theorem discovering_eq (h : AgreeIn f g admitted initial defined s t) :
    t.discovering = s.discovering := by
  rw [h.2.same]
  rfl

theorem grid_eq (h : AgreeIn f g admitted initial defined s t) : t.grid = s.grid := by
  rw [h.2.same]
  rfl

theorem hostGrid_eq (h : AgreeIn f g admitted initial defined s t) :
    t.hostGrid = s.hostGrid := by
  rw [h.2.same]
  rfl

theorem composed_eq (h : AgreeIn f g admitted initial defined s t) :
    t.composed = s.composed := by
  rw [h.2.same]
  rfl

theorem change (h : AgreeIn f g admitted initial defined s t) (c : Change) :
    AgreeIn f g admitted initial defined (s.apply c) (t.apply c) :=
  ⟨(s.discovering_apply c).trans h.1, h.2.change c⟩

/-- Walks over the same tokens from states that agree are in step. -/
theorem coupling : Coupling kit cell initial (fun _ => True)
    (AgreeIn f g admitted initial defined) := by
  refine ⟨fun h => ⟨h.1, h.discovering_eq.trans h.1⟩,
    fun _ _ _ h => ⟨h.grid_eq.symm, h.hostGrid_eq.symm⟩, fun h _ => ?_,
    fun h _ => h.act _, fun h _ => h.act _, fun h _ => h.change _⟩
  rw [h.composed_eq]

end AgreeIn

/-! ### Walks -/

/-- In the place itself two fillings are exchangeable, at the arrivals that are allowed. -/
structure Exchange (kit : Toolkit) (cell : Cell) (initial defined : Bool)
    (admitted : Token → Prop) (allowed : Arrival → Prop) (f g : Filling) : Prop where
  /-- Among tokens that are walked. -/
  walked : ∀ {s t}, AgreeIn f g admitted initial defined s t → ¬ (initial = true ∧ s.grid.isSome) →
    allowed (.composes (Selector.ofCell cell "") s) →
    InStep (AgreeIn f g admitted initial defined) (expandTokens kit cell initial f.tokens) s
      (expandTokens kit cell initial g.tokens) t
  /-- Among tokens that are searched. -/
  searched : ∀ {s t}, AgreeIn f g admitted initial defined s t → initial = true → s.grid.isSome →
    allowed (.searches s) →
    InStep (AgreeIn f g admitted initial defined) (seekHostGrid kit cell f.tokens) s
      (seekHostGrid kit cell g.tokens) t
  /-- Among the rules of a block. -/
  composed : ∀ {s t id list before after}, AgreeIn f g admitted initial defined s t →
    admitted (.pseudo id list (before ++ f.rules ++ after)) →
    ∀ part ∈ selectorParts (Selector.normalize list),
      let selector := partSelector cell (Selector.isSpecial (Selector.normalize list)) part
      allowed (.composes selector s) →
      InStep (AgreeIn f g admitted initial defined) (expandRules kit cell selector f.rules) s
        (expandRules kit cell selector g.rules) t
  /-- Among the rules of a block that is searched. -/
  sought : ∀ {s t id list before after}, AgreeIn f g admitted initial defined s t →
    admitted (.pseudo id list (before ++ f.rules ++ after)) → addressesHost list = true →
    InStep (AgreeIn f g admitted initial defined) (seekGrids kit cell f.rules) s
      (seekGrids kit cell g.rules) t

section Rules

variable {kit : Toolkit} {cell : Cell}

theorem expandRules_append (selector : String) (front back : List Rule) :
    expandRules kit cell selector (front ++ back) =
      expandRules kit cell selector front >>= fun _ => expandRules kit cell selector back := by
  induction front with
  | nil => rw [List.nil_append, expandRules, pure_bind]
  | cons declaration front ih => simp only [List.cons_append, expandRules, ih, bind_assoc]

theorem seekGrids_append (front back : List Rule) :
    seekGrids kit cell (front ++ back) =
      seekGrids kit cell front >>= fun _ => seekGrids kit cell back := by
  induction front with
  | nil => rw [List.nil_append, seekGrids, pure_bind]
  | cons declaration front ih =>
    rw [List.cons_append, seekGrids, seekGrids, ih]
    split <;> simp only [bind_assoc]

/-- The search in a block does not look into the rules. -/
theorem seekGrids_fill (before : List Rule) (p : RulePlace) (after : List Rule) (f g : Filling) :
    seekGrids kit cell (before ++ p.fill f :: after) =
      seekGrids kit cell (before ++ p.fill g :: after) := by
  obtain ⟨property, value, tokens⟩ := p
  rw [seekGrids_append, seekGrids_append]
  rfl

end Rules

namespace Exchange

variable {kit : Toolkit} {cell : Cell} {initial defined : Bool} {allowed : Arrival → Prop}

open Expanding

/-- Fewer arrivals may be allowed. -/
theorem of_imp {allowed' : Arrival → Prop}
    (h : Exchange kit cell initial defined admitted allowed f g)
    (himp : ∀ a, allowed' a → allowed a) :
    Exchange kit cell initial defined admitted allowed' f g :=
  ⟨fun hR hunknown ha => h.walked hR hunknown (himp _ ha),
    fun hR hinitial hgrid ha => h.searched hR hinitial hgrid (himp _ ha),
    fun hR hself part hpart ha => h.composed hR hself part hpart (himp _ ha), h.sought⟩

/-- Arrivals after a step are arrivals, so they are allowed if all are. -/
theorem forall_andThen {α : Type} {step : Expanding α} {arrivals : α → Expansion → List Arrival}
    {s s' : Expansion} {a : α} (h : ∀ b ∈ step.andThen arrivals s, allowed b)
    (hstep : step.perform s = (.ok a, s')) : ∀ b ∈ arrivals a s', allowed b := by
  rw [andThen, hstep] at h
  exact h

section Lists

variable {R : StateRelation} {s t : Expansion}

/-- Steps for the elements of a list keep in step if each does where its arrivals are allowed. -/
theorem inStep_along {α : Type} {x y : α → Expanding Unit}
    {arrivals : α → Expansion → List Arrival} {as : List α}
    (h : ∀ a ∈ as, ∀ s t, R s t → (∀ b ∈ arrivals a s, allowed b) → InStep R (x a) s (y a) t)
    (hR : R s t) (hb : ∀ b ∈ along x arrivals as s, allowed b) :
    InStep R (as.forM x) s (as.forM y) t := by
  induction as generalizing s t with
  | nil => exact InStep.pure hR PUnit.unit
  | cons a as ih =>
    rw [List.forall_mem_cons] at h
    rw [along, List.forall_mem_append] at hb
    refine InStep.bind_of_ok id (h.1 s t hR hb.1) fun u s' t' hx hR' => ?_
    exact ih h.2 hR' (forall_andThen (a := u) hb.2 hx)

/-- Walks over lists that differ in the middle only. -/
theorem inStep_between (hsame : Coupling kit cell initial (fun _ => True) R) (hR : R s t)
    {before middle middle' after : List Token}
    (hmiddle : ∀ s' t', (expandTokens kit cell initial before).perform s = (.ok (), s') →
      R s' t' → InStep R (expandTokens kit cell initial middle) s'
        (expandTokens kit cell initial middle') t') :
    InStep R (expandTokens kit cell initial (before ++ middle ++ after)) s
      (expandTokens kit cell initial (before ++ middle' ++ after)) t := by
  rw [expandTokens_append, expandTokens_append, expandTokens_append, expandTokens_append]
  refine InStep.bind ?_ fun _ s₂ t₂ hR₂ =>
    hsame.inStep_expandTokens after (fun _ _ => trivial) hR₂
  exact InStep.bind_of_ok id (hsame.inStep_expandTokens before (fun _ _ => trivial) hR)
    fun _ s₁ t₁ hbefore hR₁ => hmiddle s₁ t₁ hbefore hR₁

/-- Walks over two tokens are in step if the searches in them are and the walks in them are. -/
theorem inStep_single {token token' : Token} (hR : AgreeIn f g admitted initial defined s t)
    (hsearch : initial = true → s.grid.isSome →
      InStep (AgreeIn f g admitted initial defined) (seekToken kit cell token) s
        (seekToken kit cell token') t)
    (hwalk : ¬ (initial = true ∧ s.grid.isSome) →
      InStep (AgreeIn f g admitted initial defined) (expandToken kit cell initial token) s
        (expandToken kit cell initial token') t) :
    InStep (AgreeIn f g admitted initial defined) (expandTokens kit cell initial [token]) s
      (expandTokens kit cell initial [token']) t := by
  unfold InStep
  -- The walk is only a search if a grid is known, and then it is one in both trees.
  by_cases hknown : initial = true ∧ s.grid.isSome
  · have hknown' : initial = true ∧ t.grid.isSome := hR.grid_eq ▸ hknown
    rw [perform_expandTokens_known kit cell hknown, perform_expandTokens_known kit cell hknown',
      perform_seekHostGrid_cons, perform_seekHostGrid_cons, hR.hostGrid_eq]
    split
    · exact ⟨rfl, hR⟩
    · rw [seekHostGrid]
      exact InStep.bind (hsearch hknown.1 hknown.2) fun _ s' t' hR' => InStep.pure hR' ()
  · have hknown' : ¬ (initial = true ∧ t.grid.isSome) := hR.grid_eq ▸ hknown
    rw [perform_expandTokens_cons kit cell hknown, perform_expandTokens_cons kit cell hknown',
      expandTokens]
    exact InStep.bind (hwalk hknown) fun _ s' t' hR' => InStep.pure hR' ()

/-- Composing lists of rules that differ in the middle only. -/
theorem inStep_rules_between (hsame : Coupling kit cell initial (fun _ => True) R) (hR : R s t)
    {selector : String}
    (hselector : ∀ text, Change.From cell (fun _ => True) (.declare selector text))
    {before middle middle' after : List Rule}
    (hmiddle : ∀ s' t', (expandRules kit cell selector before).perform s = (.ok (), s') →
      R s' t' → InStep R (expandRules kit cell selector middle) s'
        (expandRules kit cell selector middle') t') :
    InStep R (expandRules kit cell selector (before ++ middle ++ after)) s
      (expandRules kit cell selector (before ++ middle' ++ after)) t := by
  have hother : ∀ {s t : Expansion} (styles : List Rule), R s t →
      InStep R (expandRules kit cell selector styles) s (expandRules kit cell selector styles) t :=
    fun styles hR => hsame.inStep_expandRules styles (fun _ _ => trivial) selector hselector hR
  rw [expandRules_append, expandRules_append, expandRules_append, expandRules_append]
  refine InStep.bind ?_ fun _ s₂ t₂ hR₂ => hother after hR₂
  exact InStep.bind_of_ok id (hother before hR)
    fun _ s₁ t₁ hbefore hR₁ => hmiddle s₁ t₁ hbefore hR₁

end Lists

section Blocks

variable {s t : Expansion}

/-- Searches in two pseudo blocks are in step if those in their rules are. -/
theorem inStep_seek_pseudo {id : Nat} {list : String} {styles styles' : List Rule}
    (hR : AgreeIn f g admitted initial defined s t)
    (hstyles : addressesHost list = true → InStep (AgreeIn f g admitted initial defined)
      (seekGrids kit cell styles) s (seekGrids kit cell styles') t) :
    InStep (AgreeIn f g admitted initial defined) (seekToken kit cell (.pseudo id list styles)) s
      (seekToken kit cell (.pseudo id list styles')) t := by
  rw [seekToken, seekToken]
  split
  · next hhost => exact hstyles hhost
  · exact InStep.pure hR ()

/-- Walks of two pseudo blocks are in step if their rules are composed in step for every part. -/
theorem inStep_walk_pseudo {id : Nat} {list : String} {styles styles' : List Rule}
    (arrivals : String → Expansion → List Arrival)
    (hR : AgreeIn f g admitted initial defined s t)
    (hpart : ∀ part ∈ selectorParts (Selector.normalize list), ∀ s t,
      AgreeIn f g admitted initial defined s t →
      let selector := partSelector cell (Selector.isSpecial (Selector.normalize list)) part
      (∀ a ∈ arrivals selector s, allowed a) →
      InStep (AgreeIn f g admitted initial defined) (expandRules kit cell selector styles) s
        (expandRules kit cell selector styles') t)
    (ha : id ∉ s.composed →
      let special := Selector.isSpecial (Selector.normalize list)
      ∀ a ∈ along (fun part => expandRules kit cell (partSelector cell special part) styles)
        (fun part => arrivals (partSelector cell special part))
        (selectorParts (Selector.normalize list)) (if special then s.apply (.begin id) else s),
      allowed a) :
    InStep (AgreeIn f g admitted initial defined)
      (expandToken kit cell initial (.pseudo id list styles)) s
      (expandToken kit cell initial (.pseudo id list styles')) t := by
  unfold InStep
  rw [perform_expandToken_pseudo, perform_expandToken_pseudo, hR.composed_eq]
  simp only at hpart ha
  generalize Selector.isSpecial (Selector.normalize list) = special at hpart ha ⊢
  split
  · exact ⟨rfl, hR⟩
  · next hnew =>
    have hnow := ha hnew
    cases special with
    | true =>
      -- The block begins before its parts are composed.
      rw [if_pos rfl] at hnow
      rw [if_pos rfl, beginSpecial, perform_modify_bind, perform_modify_bind]
      exact inStep_along hpart (hR.change (.begin id)) hnow
    | false =>
      rw [if_neg Bool.false_ne_true] at hnow
      rw [if_neg Bool.false_ne_true, pure_bind, pure_bind]
      exact inStep_along hpart hR hnow

/-- Walks of two conditional blocks are in step if those of their tokens are. -/
theorem inStep_walk_condition {name : String} {arguments : List Argument}
    {styles styles' : List Token} (hR : AgreeIn f g admitted initial defined s t)
    (hstyles : ∀ s' t', (act (holds kit cell name arguments)).perform s = (.ok true, s') →
      AgreeIn f g admitted initial defined s' t' →
      InStep (AgreeIn f g admitted initial defined) (expandTokens kit cell initial styles) s'
        (expandTokens kit cell initial styles') t') :
    InStep (AgreeIn f g admitted initial defined)
      (expandTokens kit cell initial [.condition name arguments styles]) s
      (expandTokens kit cell initial [.condition name arguments styles']) t := by
  refine inStep_single hR (fun hinitial hgrid => ?_) fun _ => ?_
  · obtain rfl : initial = true := hinitial
    rw [seekToken, seekToken]
    refine InStep.bind_of_ok id (hR.act _) fun b s' t' hholds hR' => ?_
    cases b with
    | false => exact InStep.pure hR' ()
    | true =>
      -- The grid is still known, so the search is what a walk comes to.
      have hgrid' : s'.grid.isSome := by
        obtain ⟨c, -, rfl⟩ := perform_act_ok.1 hholds
        exact hgrid
      have hwalk := hstyles s' t' hholds hR'
      unfold InStep at hwalk ⊢
      rw [perform_expandTokens_of_isSome _ hgrid',
        perform_expandTokens_of_isSome _ (hR'.grid_eq ▸ hgrid')] at hwalk
      exact hwalk
  · rw [expandToken, expandToken]
    refine InStep.bind_of_ok id (hR.act _) fun b s' t' hholds hR' => ?_
    cases b with
    | false => exact InStep.pure hR' ()
    | true => exact hstyles s' t' hholds hR'

/-- Two rules that differ in what they carry are composed in step if their inclusions are. -/
theorem inStep_inclusion {property : String} {value : List ValueGroup}
    {styles styles' : List Token} (selector : Option String)
    (hR : AgreeIn f g admitted initial defined s t)
    (hstyles : property = "@use" → ∀ texts s' t',
      (act (groupTexts kit.functions cell value)).perform s = (.ok texts, s') →
      AgreeIn f g admitted initial defined s' t' →
      InStep (AgreeIn f g admitted initial defined) (expandTokens kit cell initial styles) s'
        (expandTokens kit cell initial styles') t') :
    InStep (AgreeIn f g admitted initial defined)
      (composeRule kit cell selector ⟨property, value, styles⟩) s
      (composeRule kit cell selector ⟨property, value, styles'⟩) t := by
  by_cases huse : property = "@use"
  · rw [composeRule_inclusion kit cell selector huse, composeRule_inclusion kit cell selector huse]
    refine InStep.bind_of_ok id (hR.act _) fun texts s' t' hact hR' => ?_
    refine InStep.get_bind ?_
    rw [hR'.discovering_eq, hR'.1]
    exact InStep.bind (hstyles huse texts s' t' hact hR') fun _ s₂ t₂ hR₂ => InStep.pure hR₂ ""
  · -- Rules that include nothing are composed without their tokens.
    have hnone : ∀ carried : List Token, composeRule kit cell selector ⟨property, value, carried⟩ =
        composeRule kit cell selector ⟨property, value, []⟩ := by
      intro carried
      rw [composeRule_eq kit cell selector huse, composeRule_eq kit cell selector huse]
    rw [hnone styles, hnone styles']
    exact AgreeIn.coupling.inStep_composeRule_of_ne hR selector trivial huse

/-- The searches in two blocks are in step. -/
theorem inStep_seekGrids (h : Exchange kit cell initial defined admitted allowed f g)
    (p : RulesPlace) {id : Nat} {list : String} (hself : admitted (.pseudo id list (p.fill f)))
    (hhost : addressesHost list = true) (hR : AgreeIn f g admitted initial defined s t) :
    InStep (AgreeIn f g admitted initial defined) (seekGrids kit cell (p.fill f)) s
      (seekGrids kit cell (p.fill g)) t := by
  cases p with
  | here before after =>
    rw [RulesPlace.fill] at hself
    rw [RulesPlace.fill, RulesPlace.fill, seekGrids_append, seekGrids_append, seekGrids_append,
      seekGrids_append]
    refine InStep.bind (InStep.bind (AgreeIn.coupling.inStep_seekGrids before
      (fun _ _ => trivial) hR) fun _ s₁ t₁ hR₁ => ?_) fun _ s₂ t₂ hR₂ =>
        AgreeIn.coupling.inStep_seekGrids after (fun _ _ => trivial) hR₂
    exact h.sought hR₁ hself hhost
  | inside before declaration after =>
    -- The place is in what a rule carries, and the search does not come there.
    rw [RulesPlace.fill, RulesPlace.fill, seekGrids_fill before declaration after f g]
    exact AgreeIn.coupling.inStep_seekGrids _ (fun _ _ => trivial) hR

end Blocks

-- The recursion is on the place. What stands before and after it is the same in both trees.
mutual

/-- Walks over the two trees are in step. -/
theorem inStep_expandTokens (h : Exchange kit cell initial defined admitted allowed f g) :
    ∀ (p : Place), (∀ t ∈ Token.within (p.fill f), admitted t) → ∀ {s t : Expansion},
      AgreeIn f g admitted initial defined s t →
      (∀ a ∈ p.arrivals f kit cell initial s, allowed a) →
      InStep (AgreeIn f g admitted initial defined) (expandTokens kit cell initial (p.fill f)) s
        (expandTokens kit cell initial (p.fill g)) t
  | .here before after, _, s, t, hR, ha => by
    rw [Place.arrivals] at ha
    refine inStep_between AgreeIn.coupling hR fun s₁ t₁ hbefore hR₁ => ?_
    have ha₁ := forall_andThen ha hbefore
    by_cases hknown : initial = true ∧ s₁.grid.isSome
    · obtain ⟨rfl, hgrid⟩ := hknown
      rw [if_pos ⟨rfl, hgrid⟩] at ha₁
      unfold InStep
      rw [perform_expandTokens_of_isSome _ hgrid,
        perform_expandTokens_of_isSome _ (hR₁.grid_eq ▸ hgrid)]
      cases hhost : s₁.hostGrid with
      | true =>
        -- The search is over before it comes to the place.
        rw [perform_seekHostGrid_of_hostGrid _ hhost,
          perform_seekHostGrid_of_hostGrid _ (hR₁.hostGrid_eq.trans hhost)]
        exact ⟨rfl, hR₁⟩
      | false =>
        rw [hhost, if_neg Bool.false_ne_true] at ha₁
        exact h.searched hR₁ rfl hgrid (ha₁ _ List.mem_cons_self)
    · rw [if_neg hknown] at ha₁
      exact h.walked hR₁ hknown (ha₁ _ List.mem_cons_self)
  | .inside before token after, hin, s, t, hR, ha => by
    rw [Place.arrivals] at ha
    rw [Place.fill, Token.forall_within] at hin
    obtain ⟨hself, hinside⟩ := hin (token.fill f) (by simp)
    have hsplit : ∀ u : Token, before ++ u :: after = before ++ [u] ++ after := fun u => by simp
    rw [Place.fill, Place.fill, hsplit, hsplit]
    refine inStep_between AgreeIn.coupling hR fun s₁ t₁ hbefore hR₁ => ?_
    have ha₁ := forall_andThen ha hbefore
    exact h.inStep_token token hself hinside hR₁ ha₁

/-- Walks over the two tokens are in step. -/
theorem inStep_token (h : Exchange kit cell initial defined admitted allowed f g) :
    ∀ (p : TokenPlace), admitted (p.fill f) → (∀ t ∈ (p.fill f).inside, admitted t) →
      ∀ {s t : Expansion}, AgreeIn f g admitted initial defined s t →
      (∀ a ∈ p.arrivals f kit cell initial s, allowed a) →
      InStep (AgreeIn f g admitted initial defined) (expandTokens kit cell initial [p.fill f]) s
        (expandTokens kit cell initial [p.fill g]) t
  | .rule declaration, _, hin, s, t, hR, ha => by
    -- Where a grid is known the walk is a search, which passes over rules.
    refine inStep_single hR (fun _ _ => InStep.pure hR ()) fun hunknown => ?_
    rw [TokenPlace.arrivals, if_neg hunknown] at ha
    rw [TokenPlace.fill, TokenPlace.fill, expandToken, expandToken]
    refine InStep.bind (h.inStep_composeRule declaration _ hin hR ha) fun text s' t' hR' => ?_
    exact InStep.modify (hR'.change (.declare _ text))
  | .pseudo id list rules, hself, hin, s, t, hR, ha => by
    refine inStep_single hR
      (fun _ _ => inStep_seek_pseudo hR fun hhost => h.inStep_seekGrids rules hself hhost hR)
      fun hunknown => ?_
    refine inStep_walk_pseudo (fun selector => rules.arrivals f kit cell selector) hR
      (fun part hpart s t hR ha => h.inStep_expandRules rules hself hin part hpart hR ha)
      fun hnew => ?_
    rw [TokenPlace.arrivals, if_neg (not_or.2 ⟨hunknown, hnew⟩)] at ha
    exact ha
  | .condition name arguments tokens, _, hin, s, t, hR, ha => by
    rw [TokenPlace.arrivals] at ha
    refine inStep_walk_condition hR fun s' t' hholds hR' => ?_
    have ha' := forall_andThen ha hholds
    exact h.inStep_expandTokens tokens hin hR' ha'
  | .keyframes name before step rules after, _, hin, s, t, hR, _ => by
    refine inStep_single hR (fun _ _ => InStep.pure hR ()) fun _ => ?_
    rw [TokenPlace.fill, TokenPlace.fill, expandToken, expandToken]
    exact InStep.modify ⟨hR.1, hR.2.define (.inr ⟨.keyframes name before step rules after, rfl, rfl,
      hin⟩)⟩

/-- Composing the two rules is in step. -/
theorem inStep_composeRule (h : Exchange kit cell initial defined admitted allowed f g) :
    ∀ (p : RulePlace) (selector : Option String), (∀ t ∈ Token.insideRule (p.fill f), admitted t) →
      ∀ {s t : Expansion}, AgreeIn f g admitted initial defined s t →
      (∀ a ∈ p.arrivals f kit cell s, allowed a) →
      InStep (AgreeIn f g admitted initial defined) (composeRule kit cell selector (p.fill f)) s
        (composeRule kit cell selector (p.fill g)) t
  | .mk property value tokens, selector, hin, s, t, hR, ha => by
    refine inStep_inclusion selector hR fun huse texts s' t' hact hR' => ?_
    rw [RulePlace.arrivals, if_pos huse] at ha
    have ha' := forall_andThen ha hact
    rw [hR'.1] at ha'
    exact h.inStep_expandTokens tokens hin hR' ha'

/-- Composing the two lists of rules for a part of a block is in step. -/
theorem inStep_expandRules (h : Exchange kit cell initial defined admitted allowed f g) :
    ∀ (p : RulesPlace) {id : Nat} {list : String}, admitted (.pseudo id list (p.fill f)) →
      (∀ t ∈ Token.withinRules (p.fill f), admitted t) →
      ∀ part ∈ selectorParts (Selector.normalize list), ∀ {s t : Expansion},
      AgreeIn f g admitted initial defined s t →
      let selector := partSelector cell (Selector.isSpecial (Selector.normalize list)) part
      (∀ a ∈ p.arrivals f kit cell selector s, allowed a) →
      InStep (AgreeIn f g admitted initial defined) (expandRules kit cell selector (p.fill f)) s
        (expandRules kit cell selector (p.fill g)) t
  | .here before after, id, list, hself, _, part, hpart, s, t, hR => by
    intro selector ha
    rw [RulesPlace.arrivals] at ha
    refine inStep_rules_between AgreeIn.coupling hR
      (fun text => .inr ⟨id, list, [], trivial, part, hpart, rfl⟩) fun s₁ t₁ hbefore hR₁ => ?_
    have ha₁ := forall_andThen ha hbefore
    exact h.composed hR₁ hself part hpart (ha₁ _ List.mem_cons_self)
  | .inside before declaration after, id, list, _, hin, part, hpart, s, t, hR => by
    intro selector ha
    rw [RulesPlace.arrivals] at ha
    rw [RulesPlace.fill, Token.forall_withinRules] at hin
    have hcarried := (hin (declaration.fill f) (by simp)).2
    -- The rule that differs is one of the list, with rules in front and behind.
    have hsplit : ∀ r : Rule, before ++ r :: after = before ++ [r] ++ after := fun r => by simp
    rw [RulesPlace.fill, RulesPlace.fill, hsplit, hsplit]
    refine inStep_rules_between AgreeIn.coupling hR
      (fun text => .inr ⟨id, list, [], trivial, part, hpart, rfl⟩) fun s₁ t₁ hbefore hR₁ => ?_
    have ha₁ := forall_andThen ha hbefore
    simp only [expandRules]
    refine InStep.bind (h.inStep_composeRule declaration _ hcarried hR₁ ha₁)
      fun text s₂ t₂ hR₂ => ?_
    exact InStep.bind (InStep.modify (hR₂.change (.declare _ text)))
      fun _ s₃ t₃ hR₃ => InStep.pure hR₃ ()

end

end Exchange

end GridStyle
