import GridStyle.Proofs.Calls
import GridStyle.Proofs.TokenTree

/-!
# Steady Actions

An action is steady if it neither reads nor changes the shared context. Functions and predicates
are steady if all their calls are, where a function on unevaluated arguments may count on these
being steady. `Toolkit.Steady` says so of all functions and predicates that can be called, and
`Token.Steady` of the values and conditions of one tree; the first implies the second
(`Token.Steady.of_toolkit`).
-/

namespace GridStyle

namespace Action

variable {α β : Type}

/-- The outcome does not depend on the shared context, which stays as it is. -/
def Steady (action : Action α) : Prop :=
  ∃ outcome, ∀ c, action.perform c = (outcome, c)

namespace Steady

theorem pure (a : α) : (pure a : Action α).Steady := ⟨.ok a, fun _ => rfl⟩

theorem throw (e : Failure) : (throw e : Action α).Steady := ⟨.error e, fun _ => rfl⟩

theorem bind {action : Action α} {next : α → Action β} (h : action.Steady)
    (hnext : ∀ a, (next a).Steady) : (action >>= next).Steady := by
  obtain ⟨outcome, hperform⟩ := h
  cases outcome with
  | ok a =>
    obtain ⟨outcome', hperform'⟩ := hnext a
    exact ⟨outcome', fun c => by rw [perform_bind, hperform]; exact hperform' c⟩
  | error e => exact ⟨.error e, fun c => by rw [perform_bind, hperform]⟩

/-- Being steady goes over to composite actions. -/
theorem compositional : Compositional fun _ action => Action.Steady action :=
  ⟨pure, throw, bind⟩

end Steady

end Action

/-- All calls of the function are steady. Unevaluated arguments are assumed to be. -/
def Callable.Steady : Callable → Prop
  | .eager f => ∀ call args, (f call args).Steady
  | .lazy f => ∀ call args, (∀ arg ∈ args, ∀ inputs, Action.Steady (arg inputs)) →
      (f call args).Steady

/-- No function and no predicate reads or changes the shared context. -/
structure Toolkit.Steady (kit : Toolkit) : Prop where
  /-- All functions are steady. -/
  functions : ∀ {name f}, kit.functions.find? name = some f → f.Steady
  /-- All predicates are steady. -/
  predicates : ∀ {name} {predicate : Predicate}, kit.predicates.find? name = some predicate →
    ∀ call args, (predicate call args).Steady

/-- A toolkit without functions, whose only predicate holds on cells with an odd number. -/
def Toolkit.odd : Toolkit :=
  { functions := {}, predicates := [("odd", fun call _ => return call.cell.count % 2 == 1)] }

theorem Toolkit.steady_odd : Toolkit.odd.Steady := by
  refine ⟨fun hfind => ?_, fun hfind call args => ?_⟩
  · simp [Toolkit.odd, FunctionRegistry.find?, Named.find?] at hfind
  · simp only [Toolkit.odd, Named.find?, List.lookup_cons, List.lookup_nil] at hfind
    split at hfind
    · rw [Option.some.injEq] at hfind
      rw [← hfind]
      exact Action.Steady.pure _
    · exact absurd hfind (by simp)

/-- Composing the values of a tree and testing its conditions neither reads nor changes the shared
context, in any cell. -/
structure Token.Steady (kit : Toolkit) (tokens : List Token) : Prop where
  /-- The values of rules are steady. -/
  value : ∀ {declaration}, Token.rule declaration ∈ Token.within tokens → ∀ cell,
    (groupTexts kit.functions cell declaration.value).Steady
  /-- The conditions are steady. -/
  holds : ∀ {name arguments styles}, Token.condition name arguments styles ∈ Token.within tokens →
    ∀ cell, (GridStyle.holds kit cell name arguments).Steady

namespace Toolkit.Steady

variable {kit : Toolkit}

theorem have_steady (h : kit.Steady) (invocations : List Invocation) :
    kit.functions.Have (fun _ action => action.Steady) invocations := by
  intro i _ f hfind
  have hsteady := h.functions hfind
  cases f with
  | eager f => exact hsteady
  | lazy f => exact hsteady

theorem steady_groupTexts (h : kit.Steady) (cell : Cell) (groups : List ValueGroup) :
    (groupTexts kit.functions cell groups).Steady :=
  Action.Steady.compositional.groupTexts cell fun _ _ => h.have_steady _

theorem steady_holds (h : kit.Steady) (cell : Cell) (name : String)
    (arguments : List Argument) : (holds kit cell name arguments).Steady :=
  Action.Steady.compositional.holds cell (fun _ hfind => h.predicates hfind)
    (h.have_steady _)

end Toolkit.Steady

/-- Where no function and no predicate is affected by the shared context, no tree is. -/
theorem Token.Steady.of_toolkit {kit : Toolkit} (h : kit.Steady) (tokens : List Token) :
    Token.Steady kit tokens :=
  ⟨fun _ cell => h.steady_groupTexts cell _, fun _ cell => h.steady_holds cell _ _⟩

end GridStyle
