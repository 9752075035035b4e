import GridStyle.Proofs.Expansion.Itinerary
import GridStyle.Proofs.KeyframeStore
import GridStyle.Proofs.Registry

/-!
# Only Draws Depend on the Seed

Two runs with different seeds differ in the random generator, and in nothing else as long as nothing
is drawn. An action is *seedless* if it does the same with any generator and leaves the generator
alone. It may read and change the counters and the named values.

All functions and predicates of this library are seedless except for those that draw
(`have_seedless`), so a tree that calls none of these is compiled to the same stylesheet, or fails
with the same error, for every seed (`generate_seed_irrelevant`).
-/

namespace GridStyle

/-! ### Seedless actions -/

/-- The context with another generator. -/
def Context.reseed (c : Context) (random : Random) : Context := { c with random }

/-- The generator makes no difference to the action, which leaves it alone. -/
def Action.Seedless {α : Type} (action : Action α) : Prop :=
  ∀ c random, action.perform (c.reseed random) =
    ((action.perform c).1, (action.perform c).2.reseed random)

namespace Action.Seedless

variable {α β : Type}

theorem pure (a : α) : (pure a : Action α).Seedless := fun _ _ => rfl

theorem throw (e : Failure) : (throw e : Action α).Seedless := fun _ _ => rfl

theorem bind {action : Action α} {next : α → Action β} (h : action.Seedless)
    (hnext : ∀ a, (next a).Seedless) : (action >>= next).Seedless := by
  intro c random
  rw [perform_bind, perform_bind, h c random]
  rcases action.perform c with ⟨outcome, c'⟩
  -- The second part runs on two contexts that differ in the generator again.
  cases outcome with
  | ok a => exact hnext a c' random
  | error e => rfl

theorem compositional : Compositional fun _ action => Action.Seedless action :=
  ⟨pure, throw, bind⟩

/-- Counters have nothing to do with the generator. -/
theorem nextCounter (name : String) : (nextCounter name).Seedless := fun _ _ => rfl

end Action.Seedless

/-! ### Functions and predicates that draw nothing -/

/-- The functions that draw from the generator. -/
def Builtin.drawing : List String := ["pick", "p", "rand", "r"]

theorem Builtin.seedless_pickNext (call : Call) (args : List String) :
    (pickNext call args).Seedless := by
  unfold pickNext
  split
  · exact .pure none
  · exact .bind (.nextCounter _) fun turn => .pure _

/-- The functions that draw nothing are seedless: those that leave the context alone, and those that
move a counter. -/
theorem FunctionRegistry.all_seedless : builtin.All fun name f =>
    name ∉ Builtin.drawing → f.Has fun _ action => action.Seedless := by
  intro name f hfind hdraws
  by_cases hcounts : name = "pick-n" ∨ name = "pn"
  · obtain rfl : f = .eager Builtin.pickNext := by
      rcases hcounts with rfl | rfl <;> exact (Option.some.inj hfind).symm
    exact Builtin.seedless_pickNext
  · refine Action.Seedless.compositional.all_builtin name f hfind fun hcontextual => ?_
    simp only [Builtin.contextual, Builtin.drawing, List.mem_cons, List.not_mem_nil] at *
    tauto

theorem have_seedless {invocations : List Invocation}
    (h : ∀ i ∈ invocations, i.name ∉ Builtin.drawing) :
    FunctionRegistry.builtin.Have (fun _ action => action.Seedless) invocations :=
  fun i hi f hfind => FunctionRegistry.all_seedless i.name f hfind (h i hi)

/-- All predicates but chance are seedless. -/
theorem Predicates.seedless {name : String} (hname : name ≠ "random") {predicate : Predicate}
    (hfind : builtin.find? name = some predicate) (call : Call) (args : List String) :
    (predicate call args).Seedless :=
  Action.Seedless.compositional.all_predicates hname hfind call args

/-- Composing the values of a tree and testing its conditions is seedless in every cell. -/
structure Token.Seedless (kit : Toolkit) (tokens : List Token) : Prop where
  /-- The values of rules are seedless. -/
  value : ∀ {declaration}, Token.rule declaration ∈ Token.within tokens → ∀ cell,
    (groupTexts kit.functions cell declaration.value).Seedless
  /-- The conditions are seedless. -/
  holds : ∀ {name arguments styles}, Token.condition name arguments styles ∈ Token.within tokens →
    ∀ cell, (GridStyle.holds kit cell name arguments).Seedless

/-- The token itself, apart from the tokens in it, calls no function and no predicate that draws. -/
def Token.DrawsNothing : Token → Prop
  | .rule declaration =>
    ∀ group ∈ declaration.value, ∀ i ∈ ValueGroup.invocations group, i.name ∉ Builtin.drawing
  | .condition name arguments _ => Selector.stripMarker name ≠ "random" ∧
    ∀ i ∈ Argument.invocations arguments, i.name ∉ Builtin.drawing
  | .pseudo _ _ _ | .keyframes _ _ => True

instance : DecidablePred Token.DrawsNothing
  | .rule declaration => inferInstanceAs (Decidable (∀ group ∈ declaration.value,
      ∀ i ∈ ValueGroup.invocations group, i.name ∉ Builtin.drawing))
  | .condition name arguments _ => inferInstanceAs (Decidable (
      Selector.stripMarker name ≠ "random" ∧
        ∀ i ∈ Argument.invocations arguments, i.name ∉ Builtin.drawing))
  | .pseudo _ _ _ | .keyframes _ _ => inferInstanceAs (Decidable True)

/-- A tree without draws is seedless. -/
theorem Token.Seedless.of_drawsNothing (prefixing : Prefixing) {tokens : List Token}
    (h : ∀ t ∈ Token.within tokens, t.DrawsNothing) :
    Token.Seedless { Toolkit.builtin with prefixing } tokens := by
  constructor
  · intro declaration hrule cell
    have hvalue : ∀ group ∈ declaration.value, ∀ i ∈ ValueGroup.invocations group,
      i.name ∉ Builtin.drawing := h _ hrule
    exact Action.Seedless.compositional.groupTexts cell fun group hgroup =>
      have_seedless (hvalue group hgroup)
  · intro name arguments styles hcondition cell
    obtain ⟨hname, harguments⟩ : Selector.stripMarker name ≠ "random" ∧
      ∀ i ∈ Argument.invocations arguments, i.name ∉ Builtin.drawing := h _ hcondition
    exact Action.Seedless.compositional.holds cell
      (fun _ hfind => Predicates.seedless hname hfind) (have_seedless harguments)

/-! ### Runs with two seeds -/

/-- The second state is the first one with another generator. The keyframes that are known are
definitions of the tree. -/
structure Reseeded (tokens : List Token) (s t : Expansion) : Prop where
  same : ∃ random, t = s.withContext (s.context.reseed random)
  known : ∀ k ∈ s.keyframes.definitions, Token.keyframes k.name k.steps ∈ Token.within tokens

/-- States in the midst of two walks. -/
def ReseededIn (tokens : List Token) (initial : Bool) : StateRelation :=
  fun s t => s.discovering = initial ∧ Reseeded tokens s t

namespace Reseeded

variable {tokens : List Token} {s t : Expansion}

/-- A seedless action does the same to both states. -/
theorem act (h : Reseeded tokens s t) {α : Type} {action : Action α} (hseedless : action.Seedless) :
    InStep (Reseeded tokens) (Expanding.act action) s (Expanding.act action) t := by
  obtain ⟨⟨random, rfl⟩, hknown⟩ := h
  have hcontext : (s.withContext (s.context.reseed random)).context = s.context.reseed random := rfl
  unfold InStep
  rw [Expanding.perform_act, Expanding.perform_act, hcontext, hseedless]
  exact ⟨rfl, ⟨random, rfl⟩, hknown⟩

/-- A definition of the tree may become known. -/
theorem define (h : Reseeded tokens s t) {k : Keyframes}
    (hk : Token.keyframes k.name k.steps ∈ Token.within tokens) :
    ∀ k' ∈ (s.apply (.define k)).keyframes.definitions,
      Token.keyframes k'.name k'.steps ∈ Token.within tokens := by
  intro k' hk'
  have hregistered : k' ∈ (s.keyframes.registerAll [k]).definitions := hk'
  obtain hold | hnew := KeyframeStore.mem_definitions_registerAll hregistered
  · exact h.known k' hold
  · rw [List.mem_singleton.1 hnew]
    exact hk

theorem change (h : Reseeded tokens s t) {cell : Cell} {c : Change}
    (hc : c.From cell (· ∈ Token.within tokens)) : Reseeded tokens (s.apply c) (t.apply c) := by
  constructor
  · obtain ⟨random, rfl⟩ := h.same
    exact ⟨random, by rw [s.apply_withContext, s.context_apply]⟩
  · by_cases hdefine : ∃ k, c = .define k
    · obtain ⟨k, rfl⟩ := hdefine
      exact h.define hc
    · rw [s.keyframes_apply (not_exists.1 hdefine)]
      exact h.known

/-- The second pass begins with the counters at zero and with a generator for the seed. -/
theorem restart (h : Reseeded tokens s t) (seed seed' : UInt64) :
    Reseeded tokens (s.restart seed) (t.restart seed') := by
  obtain ⟨⟨random, rfl⟩, hknown⟩ := h
  exact ⟨⟨Random.ofSeed seed', rfl⟩, hknown⟩

theorem ofSeed (tokens : List Token) (seed seed' : UInt64) :
    Reseeded tokens (.ofSeed seed) (.ofSeed seed') :=
  ⟨⟨Random.ofSeed seed', rfl⟩, fun _ hk => absurd hk List.not_mem_nil⟩

end Reseeded

section Runs

variable {kit : Toolkit} {tokens : List Token} {cell : Cell} {initial : Bool} {s t : Expansion}

/-- Walks over a seedless tree do the same whatever the generator is. -/
theorem Token.Seedless.coupling (h : Token.Seedless kit tokens) :
    Coupling kit cell initial (· ∈ Token.within tokens) (ReseededIn tokens initial) := by
  have hact : ∀ {α : Type} {action : Action α}, action.Seedless → ∀ {s t},
      ReseededIn tokens initial s t → InStep (ReseededIn tokens initial) (Expanding.act action) s
        (Expanding.act action) t := by
    rintro α action hseedless s t ⟨hdiscovering, hR⟩
    refine ⟨(hR.act hseedless).1, ?_, (hR.act hseedless).2⟩
    rw [Expanding.perform_act]
    exact hdiscovering
  constructor
  · rintro s t ⟨hdiscovering, ⟨random, rfl⟩, -⟩
    exact ⟨hdiscovering, hdiscovering⟩
  · rintro - s t ⟨-, ⟨random, rfl⟩, -⟩
    exact ⟨rfl, rfl⟩
  · rintro s t id list styles ⟨-, ⟨random, rfl⟩, -⟩ -
    exact Iff.rfl
  · exact fun hR hrule => hact (h.value hrule cell) hR
  · exact fun hR hcondition => hact (h.holds hcondition cell) hR
  · rintro s t c ⟨hdiscovering, hR⟩ hc
    exact ⟨(s.discovering_apply c).trans hdiscovering, hR.change hc⟩

theorem Token.Seedless.inStep_expandCell (h : Token.Seedless kit tokens)
    (hR : Reseeded tokens s t) : InStep (Reseeded tokens) (expandCell kit initial tokens cell) s
      (expandCell kit initial tokens cell) t := by
  have henter : ReseededIn tokens initial (s.enter initial cell) (t.enter initial cell) := by
    obtain ⟨⟨random, rfl⟩, hknown⟩ := hR
    exact ⟨rfl, ⟨random, rfl⟩, hknown⟩
  exact (h.coupling.inStep_expandTokens tokens (fun _ ht => ht) henter).mono fun hR => hR.2

/-- The keyframes that are known have the same bodies whatever the generator is. -/
theorem Token.Seedless.inStep_keyframesSection (h : Token.Seedless kit tokens)
    (hR : Reseeded tokens s t) : InStep (Reseeded tokens) (keyframesSection kit) s
      (keyframesSection kit) t := by
  have hknown := hR.known
  have hsame : t.history = s.history ∧ t.keyframes = s.keyframes := by
    obtain ⟨⟨random, rfl⟩, -⟩ := hR
    exact ⟨rfl, rfl⟩
  unfold keyframesSection
  refine InStep.get_bind ?_
  rw [hsame.1, hsame.2]
  -- Rendering is no walk of its own, so the flag of the last walk is kept.
  refine InStep.mono (R := ReseededIn tokens s.discovering) ?_ fun hR => hR.2
  refine InStep.bind (InStep.mapM (fun visited _ s' t' hR => ?_) ⟨rfl, hR⟩)
    fun texts s' t' hR => InStep.pure hR _
  refine InStep.mapM (fun k hk s' t' hR => ?_) hR
  refine InStep.bind (h.coupling.inStep_keyframesBody (fun step hstep => ?_) hR)
    fun body s' t' hR => InStep.pure hR _
  exact Token.closed_within tokens _ (hknown k hk) hstep

/-- A seedless tree is compiled to the same stylesheet for every seed, or fails with the same
error. -/
theorem Token.Seedless.generate_eq (h : Token.Seedless kit tokens) (seed seed' : UInt64)
    (default : GridSize) :
    generate kit seed tokens default = generate kit seed' tokens default := by
  suffices hrun : InStep (Reseeded tokens) (generation kit seed tokens default) (.ofSeed seed)
      (generation kit seed' tokens default) (.ofSeed seed') from hrun.1
  simp only [generation, discover, bind_assoc, pure_bind]
  refine InStep.bind (h.inStep_expandCell (Reseeded.ofSeed tokens seed seed'))
    fun _ s₁ t₁ hR₁ => ?_
  -- Both first passes have found the same grid, and both second passes visit its cells.
  refine InStep.get_bind ?_
  have hgrid : t₁.grid = s₁.grid := by
    obtain ⟨⟨random, rfl⟩, -⟩ := hR₁
    rfl
  rw [hgrid]
  refine InStep.bind (R := Reseeded tokens) ?_ fun _ s₂ t₂ hR₂ => ?_
  · exact InStep.forM (fun cell _ s t hR => h.inStep_expandCell hR) (hR₁.restart seed seed')
  refine InStep.get_bind ?_
  refine InStep.bind (h.inStep_keyframesSection hR₂) fun keyframes s₃ t₃ hR₃ => ?_
  refine InStep.get_bind ?_
  have hrules : t₂.rules = s₂.rules := by
    obtain ⟨⟨random, rfl⟩, -⟩ := hR₂
    rfl
  have hfeatures : t₃.features = s₃.features := by
    obtain ⟨⟨random, rfl⟩, -⟩ := hR₃
    rfl
  rw [hrules, hfeatures]
  exact InStep.pure hR₃ _

end Runs

/-- With the functions and predicates of this library, a tree that calls none of `pick`, `p`, `rand`
and `r` at any depth, and has no condition on `random`, is compiled to the same stylesheet for all
seeds, or fails with the same error. -/
theorem generate_seed_irrelevant (prefixing : Prefixing) {tokens : List Token}
    (h : ∀ t ∈ Token.within tokens, t.DrawsNothing) (default : GridSize) (seed seed' : UInt64) :
    generate { Toolkit.builtin with prefixing } seed tokens default =
      generate { Toolkit.builtin with prefixing } seed' tokens default :=
  (Token.Seedless.of_drawsNothing prefixing h).generate_eq seed seed' default

/-- Colors that alternate from cell to cell, and every second cell with a border. -/
def alternating : List Token :=
  [.rule ⟨"color", [[.call "@pick-n" [.ofText "red", .ofText "blue"] 0]], []⟩,
    .condition "@even" [] [.rule ⟨"border-width", [[.call "@index" [] 1]], []⟩]]

/-- Counters and conditions on the place are no draws. -/
theorem generate_seed_irrelevant_alternating :
    (generate .builtin 1 alternating ⟨1, 3, 1⟩).isOk = true ∧
    generate .builtin 1 alternating ⟨1, 3, 1⟩ = generate .builtin 2 alternating ⟨1, 3, 1⟩ := by
  refine ⟨by decide +kernel, generate_seed_irrelevant .vendor ?_ ⟨1, 3, 1⟩ 1 2⟩
  have hwithin : Token.within alternating = alternating ++
      [.rule ⟨"border-width", [[.call "@index" [] 1]], []⟩] := rfl
  rw [hwithin]
  decide

end GridStyle
