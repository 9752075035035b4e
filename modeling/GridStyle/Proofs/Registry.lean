import GridStyle.Generate
import GridStyle.Proofs.Calls

/-!
# The Functions of a Registry

What holds of all functions that are listed in this library holds of all that the registry finds
(`FunctionRegistry.all_builtin`). Functions under names that are registered twice would hide each
other, and so each is only required to have the property under its own name.

Most functions compute with their texts alone, and those that repeat an argument do what the
argument does. So they have all properties of composite actions (`Compositional.all_builtin`). Only
a few functions read or change the shared context (`Builtin.contextual`), and of the predicates only
chance does (`Compositional.all_predicates`).
-/

namespace GridStyle

/-- What is found under a name is one of the entries. -/
theorem Named.mem_of_find? {α : Type} {entries : Named α} {name : String} {a : α}
    (h : entries.find? name = some a) : (name, a) ∈ entries := by
  obtain ⟨front, back, rfl, -⟩ := List.lookup_eq_some_iff.1 h
  exact List.mem_append_right front List.mem_cons_self

namespace FunctionRegistry

/-- All functions that a registry finds have a property, each under its name. -/
def All (r : FunctionRegistry) (Q : String → Callable → Prop) : Prop :=
  ∀ name f, r.find? name = some f → Q name f

variable {r : FunctionRegistry} {Q : String → Callable → Prop}

theorem All.empty : All {} Q := fun _ _ h => absurd h.symm (Option.some_ne_none _)

/-- A custom function comes before all others of its name. -/
theorem All.registerCustom (h : r.All Q) {name : String} {f : Callable} (hf : Q name f) :
    All { r with custom := r.custom.register name f } Q := by
  intro other g hfind
  rw [find?, Named.find?_register] at hfind
  split at hfind
  · next heq =>
    rw [Option.some_or, Option.some.injEq] at hfind
    rw [heq, ← hfind]
    exact hf
  · exact h other g hfind

/-- A math function is found where no custom function has its name. -/
theorem All.registerMath (h : r.All Q) {name : String} {f : EagerFunction}
    (hf : Q name (.eager f)) : (r.registerMath name f).All Q := by
  intro other g hfind
  rw [find?, FunctionRegistry.registerMath, Named.find?_register] at hfind
  split at hfind
  · next heq =>
    rcases hcustom : r.custom.find? other with _ | custom
    · rw [hcustom, Option.none_or, Option.some.injEq] at hfind
      rw [heq, ← hfind]
      exact hf
    · rw [hcustom, Option.some_or] at hfind
      exact h other g (by rw [find?, hcustom, Option.some_or, hfind])
  · exact h other g hfind

/-- Registering the functions of a list keeps what they all have. -/
theorem All.foldl {α : Type} {register : FunctionRegistry → String × α → FunctionRegistry}
    {fs : List (String × α)} (hregister : ∀ {r : FunctionRegistry}, ∀ f ∈ fs, r.All Q →
      (register r f).All Q) (h : r.All Q) : (fs.foldl register r).All Q := by
  induction fs generalizing r with
  | nil => exact h
  | cons f fs ih =>
    exact ih (fun g hg => hregister g (List.mem_cons_of_mem f hg))
      (hregister f List.mem_cons_self h)

/-- What all listed functions have is had by all functions of the library's registry. -/
theorem all_builtin (heager : ∀ f ∈ Builtin.eagerFunctions, Q f.1 (.eager f.2))
    (hlazy : ∀ f ∈ Builtin.lazyFunctions, Q f.1 (.lazy f.2))
    (hmath : ∀ f ∈ Math.functions, Q f.1 (.eager f.2)) : builtin.All Q := by
  refine All.foldl (fun f hf h => h.registerMath (hmath f hf)) ?_
  refine All.foldl (fun f hf h => h.registerCustom (hlazy f hf)) ?_
  exact All.foldl (fun f hf h => h.registerCustom (heager f hf)) All.empty

end FunctionRegistry

/-- Repeating an argument has all properties of composite actions that the arguments have. -/
theorem Compositional.repeatWith {P : (α : Type) → Action α → Prop} (h : Compositional P)
    (name separator : String) : (Callable.lazy (Builtin.repeatWith name separator)).Has P := by
  intro call args hargs
  rcases args with _ | ⟨times, _ | ⟨body, rest⟩⟩
  · exact h.pure none
  · exact h.pure none
  rw [List.forall_mem_cons, List.forall_mem_cons] at hargs
  rw [Builtin.repeatWith]
  refine h.bind (hargs.1 []) fun text => ?_
  split
  · exact h.pure none
  · split
    · exact h.throw _
    · -- The second argument is evaluated for one index after the other.
      exact h.bind (h.mapM fun i _ => hargs.2.1 _) fun parts => h.pure _

/-- What the functions on texts have, one kind of them after the other, is had by all of them. -/
theorem Builtin.forall_eagerFunctions {Q : String → EagerFunction → Prop}
    (hcell : ∀ name number, Q name (fromCell number))
    (hinjected : Q "n" (injected 0) ∧ Q "N" (injected 1)) (hpick : Q "pick" pick ∧ Q "p" pick)
    (hnext : Q "pick-n" pickNext ∧ Q "pn" pickNext) (hrandom : Q "rand" random ∧ Q "r" random)
    (hexpression : Q "calc" expression) (hshape : Q "shape" shape) :
    ∀ f ∈ eagerFunctions, Q f.1 f.2 := by
  simp only [eagerFunctions, List.forall_mem_cons, hcell, hinjected, hpick, hnext, hrandom,
    hexpression, hshape, true_and, List.not_mem_nil, false_imp_iff, implies_true]

/-- What the functions on unevaluated arguments have is had by all that are listed. -/
theorem Builtin.forall_lazyFunctions {Q : String → LazyFunction → Prop}
    (hrepeat : Q "repeat" (repeatWith "repeat" ""))
    (hmultiple : Q "multiple" (repeatWith "multiple" ",")) (hm : Q "m" (repeatWith "m" ",")) :
    ∀ f ∈ lazyFunctions, Q f.1 f.2 := by
  simp only [lazyFunctions, List.forall_mem_cons, hrepeat, hmultiple, hm, true_and,
    List.not_mem_nil, false_imp_iff, implies_true]

/-- Math functions compute their results from the texts alone. -/
theorem Math.exists_eq_pure {f : String × EagerFunction} (hf : f ∈ functions) :
    ∃ result : List String → Option String, ∀ call args, f.2 call args = pure (result args) := by
  have hnumbers : ∀ g : List Float → Option Float, ∃ result : List String → Option String,
      ∀ call args, onNumbers g call args = pure (result args) :=
    fun g => ⟨fun args => ((numbers args).bind g).bind Decimal.cssText, fun _ _ => rfl⟩
  have hconstant : ∀ x, ∃ result : List String → Option String,
      ∀ call args, constant x call args = pure (result args) :=
    fun x => ⟨fun _ => Decimal.cssText x, fun _ _ => rfl⟩
  revert f
  rw [functions]
  simp only [List.forall_mem_cons, unary, binary, combine, hnumbers, hconstant, true_and,
    List.not_mem_nil, false_imp_iff, implies_true]

/-- The functions that read or change the shared context. -/
def Builtin.contextual : List String := ["pick", "p", "pick-n", "pn", "rand", "r"]

/-- The functions that leave the shared context alone have all properties of composite actions. -/
theorem Compositional.all_builtin {P : (α : Type) → Action α → Prop} (h : Compositional P) :
    FunctionRegistry.builtin.All fun name f => name ∉ Builtin.contextual → f.Has P := by
  -- The functions of the context are left out by name.
  have hlisted : ∀ {name : String}, name ∈ Builtin.contextual → ∀ f : Callable,
      name ∉ Builtin.contextual → f.Has P := fun hname _ hnot => absurd hname hnot
  have hexpression : (Callable.eager Builtin.expression).Has P := by
    intro call args
    cases args with
    | nil => exact h.pure none
    | cons source rest =>
      rw [Builtin.expression]
      split
      · exact h.pure _
      · exact h.throw _
  have hshape : (Callable.eager Builtin.shape).Has P := by
    intro call args
    cases args with
    | nil => exact h.pure none
    | cons name rest => exact h.pure _
  refine FunctionRegistry.all_builtin ?eager ?lazy ?math
  case eager =>
    refine @Builtin.forall_eagerFunctions (fun name f => name ∉ Builtin.contextual →
      (Callable.eager f).Has P) (fun _ _ _ _ _ => h.pure _) ?injected ?pick ?next ?random
      ?expression ?shape
    case injected => exact ⟨fun _ _ _ => h.pure _, fun _ _ _ => h.pure _⟩
    case pick => exact ⟨hlisted (by decide) _, hlisted (by decide) _⟩
    case next => exact ⟨hlisted (by decide) _, hlisted (by decide) _⟩
    case random => exact ⟨hlisted (by decide) _, hlisted (by decide) _⟩
    case expression => exact fun _ => hexpression
    case shape => exact fun _ => hshape
  case lazy =>
    exact @Builtin.forall_lazyFunctions (fun name f => name ∉ Builtin.contextual →
      (Callable.lazy f).Has P) (fun _ => h.repeatWith _ _) (fun _ => h.repeatWith _ _)
      (fun _ => h.repeatWith _ _)
  case math =>
    intro f hf _ call args
    obtain ⟨result, hresult⟩ := Math.exists_eq_pure hf
    rw [hresult]
    exact h.pure _

/-! ### Predicates -/

/-- Chance has the properties of composite actions that a draw has. -/
theorem Compositional.chance {P : (α : Type) → Action α → Prop} (h : Compositional P)
    (hdraw : P Float (Action.draw Random.unit)) (call : Call) (args : List String) :
    P Bool (Predicates.byChance call args) := by
  have hdrawn : ∀ ratio : Float,
      P Bool (do let drawn ← Action.draw Random.unit; return drawn < ratio) :=
    fun ratio => h.bind hdraw fun drawn => h.pure _
  unfold Predicates.byChance
  split
  · exact h.bind (h.pure _) hdrawn
  · split
    · exact h.bind (h.pure _) hdrawn
    · exact h.bind (h.throw _) hdrawn

/-- All predicates but chance look at the place of the cell alone, and so they have all properties
of composite actions. -/
theorem Compositional.all_predicates {P : (α : Type) → Action α → Prop} (h : Compositional P)
    {name : String} (hname : name ≠ "random") {predicate : Predicate}
    (hfind : Predicates.builtin.find? name = some predicate) (call : Call) (args : List String) :
    P Bool (predicate call args) := by
  have hat : P Bool (Predicates.isAt call args) := by
    unfold Predicates.isAt
    split <;> exact h.pure _
  have hnumber (number : Cell → Nat) : P Bool (Predicates.byNumber number call args) := by
    rw [Predicates.byNumber]
    cases Predicates.anyContains args (number call.cell) with
    | ok holds => exact h.pure holds
    | error fault => exact h.throw _
  have hall : ∀ p ∈ Predicates.builtin, p.1 ≠ "random" → P Bool (p.2 call args) := by
    simp only [Predicates.builtin, List.forall_mem_cons]
    exact ⟨fun _ => hnumber _, fun _ => h.pure _, fun _ => h.pure _, fun _ => hnumber _,
      fun _ => hnumber _, fun _ => hat, fun hnot => absurd rfl hnot,
      fun p hp => absurd hp List.not_mem_nil⟩
  exact hall _ (Named.mem_of_find? hfind) hname

end GridStyle
