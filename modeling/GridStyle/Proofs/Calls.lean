import GridStyle.Expansion.Tree
import GridStyle.Proofs.Perform

/-!
# The Calls of a Value

What a value does to the shared context is done by the functions that are called in it, at any
depth. So a property of actions that goes over to composite actions (`Compositional`) is one of
composing a value as soon as all functions have it that the value calls. A function on unevaluated
arguments may count on these to have it.

Calls are told apart by the name of the function and the position in the source
(`ValueNode.sites`, `Compositional.nodeText_of_sites`). Where all positions are alike, the name and
the arguments are all that counts (`ValueNode.invocations`, `Compositional.nodeText`).
-/

namespace GridStyle

/-! ### Calls -/

/-- A call that is written in a value. -/
structure Invocation where
  /-- The name of the function, without its marker. -/
  name : String
  /-- The arguments. -/
  arguments : List Argument

mutual

/-- The calls in a piece of a value, each before those in its arguments. -/
def ValueNode.invocations : ValueNode → List Invocation
  | .text _ => []
  | .call name arguments _ =>
    ⟨Selector.stripMarker name, arguments⟩ :: Argument.invocations arguments

/-- The calls in the pieces of a value. -/
def ValueGroup.invocations : List ValueNode → List Invocation
  | [] => []
  | node :: nodes => node.invocations ++ ValueGroup.invocations nodes

/-- The calls in some arguments. -/
def Argument.invocations : List Argument → List Invocation
  | [] => []
  | ⟨_, nodes⟩ :: arguments => ValueGroup.invocations nodes ++ Argument.invocations arguments

end

/-- Where a function is called. -/
structure CallSite where
  /-- The name of the function, without its marker. -/
  name : String
  /-- The position of the call in the source. -/
  position : Nat

mutual

/-- The sites of the calls in a piece of a value. -/
def ValueNode.sites : ValueNode → List CallSite
  | .text _ => []
  | .call name arguments position =>
    ⟨Selector.stripMarker name, position⟩ :: Argument.sites arguments

/-- The sites of the calls in the pieces of a value. -/
def ValueGroup.sites : List ValueNode → List CallSite
  | [] => []
  | node :: nodes => node.sites ++ ValueGroup.sites nodes

/-- The sites of the calls in some arguments. -/
def Argument.sites : List Argument → List CallSite
  | [] => []
  | ⟨_, nodes⟩ :: arguments => ValueGroup.sites nodes ++ Argument.sites arguments

end

section Invocations

variable {Q : String → Prop}

mutual

/-- What holds of the names of all calls holds of the names at all sites. -/
theorem ValueNode.forall_sites : ∀ node : ValueNode, (∀ i ∈ node.invocations, Q i.name) →
    ∀ site ∈ node.sites, Q site.name
  | .text _, _ => by
    rw [ValueNode.sites]
    exact fun site hsite => absurd hsite List.not_mem_nil
  | .call name arguments position, h => by
    rw [ValueNode.invocations, List.forall_mem_cons] at h
    rw [ValueNode.sites, List.forall_mem_cons]
    exact ⟨h.1, Argument.forall_sites arguments h.2⟩

@[inherit_doc ValueNode.forall_sites]
theorem ValueGroup.forall_sites : ∀ nodes : List ValueNode,
    (∀ i ∈ ValueGroup.invocations nodes, Q i.name) → ∀ site ∈ ValueGroup.sites nodes, Q site.name
  | [], _ => by
    rw [ValueGroup.sites]
    exact fun site hsite => absurd hsite List.not_mem_nil
  | node :: nodes, h => by
    rw [ValueGroup.invocations, List.forall_mem_append] at h
    rw [ValueGroup.sites, List.forall_mem_append]
    exact ⟨node.forall_sites h.1, ValueGroup.forall_sites nodes h.2⟩

@[inherit_doc ValueNode.forall_sites]
theorem Argument.forall_sites : ∀ arguments : List Argument,
    (∀ i ∈ Argument.invocations arguments, Q i.name) →
      ∀ site ∈ Argument.sites arguments, Q site.name
  | [], _ => by
    rw [Argument.sites]
    exact fun site hsite => absurd hsite List.not_mem_nil
  | ⟨_, nodes⟩ :: arguments, h => by
    rw [Argument.invocations, List.forall_mem_append] at h
    rw [Argument.sites, List.forall_mem_append]
    exact ⟨ValueGroup.forall_sites nodes h.1, Argument.forall_sites arguments h.2⟩

end

end Invocations

/-! ### Properties of composite actions -/

/-- A property that composite actions have if their parts do. -/
structure Compositional (P : (α : Type) → Action α → Prop) : Prop where
  /-- Doing nothing has it. -/
  pure : ∀ {α} (a : α), P α (pure a)
  /-- Failing has it. -/
  throw : ∀ {α} (e : Failure), P α (throw e)
  /-- One action after another has it. -/
  bind : ∀ {α β} {action : Action α} {next : α → Action β}, P α action → (∀ a, P β (next a)) →
    P β (action >>= next)

/-- All calls of the function have a property. Unevaluated arguments are assumed to have it. -/
def Callable.Has (P : (α : Type) → Action α → Prop) : Callable → Prop
  | .eager f => ∀ call args, P _ (f call args)
  | .lazy f => ∀ call args, (∀ arg ∈ args, ∀ inputs, P String (arg inputs)) → P _ (f call args)

/-- All calls of the function at a position have a property. Unevaluated arguments are assumed to
have it. -/
def Callable.HasAt (P : (α : Type) → Action α → Prop) (position : Nat) : Callable → Prop
  | .eager f => ∀ call args, call.position = position → P _ (f call args)
  | .lazy f => ∀ call args, call.position = position →
      (∀ arg ∈ args, ∀ inputs, P String (arg inputs)) → P _ (f call args)

theorem Callable.Has.at {P : (α : Type) → Action α → Prop} {f : Callable} (h : f.Has P)
    (position : Nat) : f.HasAt P position := by
  cases f with
  | eager f => exact fun call args _ => h call args
  | lazy f => exact fun call args _ => h call args

/-- All functions have a property at the sites where they are called, as far as there are any. -/
def FunctionRegistry.HaveAt (functions : FunctionRegistry) (P : (α : Type) → Action α → Prop)
    (sites : List CallSite) : Prop :=
  ∀ site ∈ sites, ∀ f, functions.find? site.name = some f → f.HasAt P site.position

/-- All functions that are called have a property, as far as there are any. -/
def FunctionRegistry.Have (functions : FunctionRegistry) (P : (α : Type) → Action α → Prop)
    (invocations : List Invocation) : Prop :=
  ∀ i ∈ invocations, ∀ f, functions.find? i.name = some f → f.Has P

/-- Functions that have a property at every position have it at all sites of their names. -/
theorem FunctionRegistry.haveAt_of_forall {functions : FunctionRegistry}
    {P : (α : Type) → Action α → Prop} {sites : List CallSite}
    (h : ∀ site ∈ sites, ∀ f, functions.find? site.name = some f → f.Has P) :
    functions.HaveAt P sites :=
  fun site hsite f hfind => (h site hsite f hfind).at site.position

namespace Compositional

variable {P : (α : Type) → Action α → Prop} {functions : FunctionRegistry}

theorem map (h : Compositional P) {α β : Type} {action : Action α} (f : α → β)
    (haction : P α action) : P β (f <$> action) := by
  rw [map_eq_pure_bind]
  exact h.bind haction fun a => h.pure (f a)

theorem mapM (h : Compositional P) {α β : Type} {f : α → Action β} {as : List α}
    (hf : ∀ a ∈ as, P β (f a)) : P (List β) (as.mapM f) := by
  induction as with
  | nil => exact h.pure []
  | cons a as ih =>
    rw [List.forall_mem_cons] at hf
    rw [List.mapM_cons]
    exact h.bind hf.1 fun b => h.bind (ih hf.2) fun bs => h.pure (b :: bs)

mutual

/-- Composing a piece of a value has a property of the functions at their sites. -/
theorem nodeText_of_sites (h : Compositional P) (cell : Cell) :
    ∀ (node : ValueNode) (extra : List String), functions.HaveAt P node.sites →
      P String (GridStyle.nodeText functions cell node extra)
  | .text value, extra, _ => by
    rw [GridStyle.nodeText]
    exact h.pure value
  | .call name arguments position, extra, hcalls => by
    rw [ValueNode.sites, FunctionRegistry.HaveAt, List.forall_mem_cons] at hcalls
    obtain ⟨hcall, harguments⟩ := hcalls
    rw [GridStyle.nodeText]
    split
    · exact h.pure ""
    · next f hfind =>
      refine h.bind (h.argumentInputs_of_sites cell arguments extra harguments) fun inputs => ?_
      exact h.bind (hcall _ hfind _ inputs rfl) fun text => h.pure _
    · next f hfind =>
      -- A function on unevaluated arguments has it because these do.
      refine h.bind (hcall _ hfind _ _ rfl ?_) fun text => h.pure _
      exact h.suspended_of_sites cell arguments extra harguments

/-- Composing the pieces of a value has a property of the functions at their sites. -/
theorem nodeTexts_of_sites (h : Compositional P) (cell : Cell) :
    ∀ (nodes : List ValueNode) (extra : List String),
      functions.HaveAt P (ValueGroup.sites nodes) →
        P (List String) (GridStyle.nodeTexts functions cell nodes extra)
  | [], extra, _ => by
    rw [GridStyle.nodeTexts]
    exact h.pure []
  | node :: nodes, extra, hcalls => by
    rw [ValueGroup.sites, FunctionRegistry.HaveAt, List.forall_mem_append] at hcalls
    rw [GridStyle.nodeTexts]
    refine h.bind (h.nodeText_of_sites cell node extra hcalls.1) fun text => ?_
    exact h.bind (h.nodeTexts_of_sites cell nodes extra hcalls.2) fun texts =>
      h.pure (text :: texts)

/-- Composing arguments has a property of the functions at their sites. -/
theorem argumentInputs_of_sites (h : Compositional P) (cell : Cell) :
    ∀ (arguments : List Argument) (extra : List String),
      functions.HaveAt P (Argument.sites arguments) →
        P (List String) (GridStyle.argumentInputs functions cell arguments extra)
  | [], extra, _ => by
    rw [GridStyle.argumentInputs]
    exact h.pure []
  | ⟨cluster, nodes⟩ :: arguments, extra, hcalls => by
    rw [Argument.sites, FunctionRegistry.HaveAt, List.forall_mem_append] at hcalls
    rw [GridStyle.argumentInputs]
    refine h.bind (h.nodeTexts_of_sites cell nodes extra hcalls.1) fun texts => ?_
    exact h.bind (h.argumentInputs_of_sites cell arguments extra hcalls.2) fun inputs => h.pure _

/-- Arguments that are evaluated later have a property of the functions at their sites. -/
theorem suspended_of_sites (h : Compositional P) (cell : Cell) :
    ∀ (arguments : List Argument) (extra : List String),
      functions.HaveAt P (Argument.sites arguments) →
        ∀ arg ∈ GridStyle.suspended functions cell arguments extra, ∀ inputs, P String (arg inputs)
  | [], extra, _ => by
    rw [GridStyle.suspended]
    exact fun arg harg => absurd harg List.not_mem_nil
  | ⟨cluster, nodes⟩ :: arguments, extra, hcalls => by
    rw [Argument.sites, FunctionRegistry.HaveAt, List.forall_mem_append] at hcalls
    rw [GridStyle.suspended, List.forall_mem_cons]
    refine ⟨fun inputs => ?_, h.suspended_of_sites cell arguments extra hcalls.2⟩
    exact h.map String.join (h.nodeTexts_of_sites cell nodes _ hcalls.1)

end

/-- Composing the groups of a value has a property of the functions at their sites. -/
theorem groupTexts_of_sites (h : Compositional P) (cell : Cell) {groups : List ValueGroup}
    (hcalls : ∀ group ∈ groups, functions.HaveAt P (ValueGroup.sites group)) :
    P (List String) (GridStyle.groupTexts functions cell groups) := by
  unfold GridStyle.groupTexts
  refine h.bind (h.mapM fun group hgroup => ?_) fun texts => h.pure _
  exact h.map String.join (h.nodeTexts_of_sites cell group [] (hcalls group hgroup))

/-- Testing a condition has a property of the predicate and of the functions at their sites in its
arguments. -/
theorem holds_of_sites (h : Compositional P) {kit : Toolkit} (cell : Cell) {name : String}
    {arguments : List Argument}
    (hpredicate : ∀ predicate : Predicate,
      kit.predicates.find? (Selector.stripMarker name) = some predicate →
        ∀ call args, P Bool (predicate call args))
    (hcalls : kit.functions.HaveAt P (Argument.sites arguments)) :
    P Bool (GridStyle.holds kit cell name arguments) := by
  unfold GridStyle.holds
  split
  · exact h.pure false
  · next predicate hfind =>
    exact h.bind (h.argumentInputs_of_sites cell arguments [] hcalls) fun inputs =>
      hpredicate predicate hfind _ inputs

/-! #### All positions alike -/

/-- Composing a piece of a value has a property of the functions that it calls. -/
theorem nodeText (h : Compositional P) (cell : Cell) (node : ValueNode) (extra : List String)
    (hcalls : functions.Have P node.invocations) :
    P String (nodeText functions cell node extra) :=
  h.nodeText_of_sites cell node extra (FunctionRegistry.haveAt_of_forall
    (node.forall_sites (Q := fun name => ∀ f, functions.find? name = some f → f.Has P) hcalls))

/-- Composing the pieces of a value has a property of the functions that they call. -/
theorem nodeTexts (h : Compositional P) (cell : Cell) (nodes : List ValueNode)
    (extra : List String) (hcalls : functions.Have P (ValueGroup.invocations nodes)) :
    P (List String) (nodeTexts functions cell nodes extra) :=
  h.nodeTexts_of_sites cell nodes extra (FunctionRegistry.haveAt_of_forall
    (ValueGroup.forall_sites (Q := fun name => ∀ f, functions.find? name = some f → f.Has P) nodes
      hcalls))

/-- Composing arguments has a property of the functions that they call. -/
theorem argumentInputs (h : Compositional P) (cell : Cell) (arguments : List Argument)
    (extra : List String) (hcalls : functions.Have P (Argument.invocations arguments)) :
    P (List String) (argumentInputs functions cell arguments extra) :=
  h.argumentInputs_of_sites cell arguments extra (FunctionRegistry.haveAt_of_forall
    (Argument.forall_sites (Q := fun name => ∀ f, functions.find? name = some f → f.Has P)
      arguments hcalls))

/-- Arguments that are evaluated later have a property of the functions that they call. -/
theorem suspended (h : Compositional P) (cell : Cell) (arguments : List Argument)
    (extra : List String) (hcalls : functions.Have P (Argument.invocations arguments)) :
    ∀ arg ∈ suspended functions cell arguments extra, ∀ inputs, P String (arg inputs) :=
  h.suspended_of_sites cell arguments extra (FunctionRegistry.haveAt_of_forall
    (Argument.forall_sites (Q := fun name => ∀ f, functions.find? name = some f → f.Has P)
      arguments hcalls))

/-- Composing the groups of a value has a property of the functions that they call. -/
theorem groupTexts (h : Compositional P) (cell : Cell) {groups : List ValueGroup}
    (hcalls : ∀ group ∈ groups, functions.Have P (ValueGroup.invocations group)) :
    P (List String) (groupTexts functions cell groups) :=
  h.groupTexts_of_sites cell fun group hgroup => FunctionRegistry.haveAt_of_forall
    (ValueGroup.forall_sites (Q := fun name => ∀ f, functions.find? name = some f → f.Has P) group
      (hcalls group hgroup))

/-- Testing a condition has a property of the predicate and of the functions that are called in its
arguments. -/
theorem holds (h : Compositional P) {kit : Toolkit} (cell : Cell) {name : String}
    {arguments : List Argument}
    (hpredicate : ∀ predicate : Predicate,
      kit.predicates.find? (Selector.stripMarker name) = some predicate →
        ∀ call args, P Bool (predicate call args))
    (hcalls : kit.functions.Have P (Argument.invocations arguments)) :
    P Bool (holds kit cell name arguments) :=
  h.holds_of_sites cell hpredicate (FunctionRegistry.haveAt_of_forall
    (Argument.forall_sites (Q := fun name => ∀ f, kit.functions.find? name = some f → f.Has P)
      arguments hcalls))

end Compositional

end GridStyle
