import GridStyle.Proofs.Registry
import GridStyle.Proofs.Steady
import GridStyle.Proofs.WholeNumber

/-!
# Repetition Is Unrolling

A repeated argument sees the index and the total as the inputs of `n` and `N`. Composing it with
these inputs is composing it as it stands once the index and the total are written in the place of
those calls (`groupText_unroll`). An argument that is repeated in it has an index of its own, so
nothing is replaced there.

So a call of `repeat` is as good as the sequence of its unrolled arguments, and a call of `multiple`
or `m` is their list (`repetition_unrolls`).
-/

namespace GridStyle

/-! ### Unrolling -/

/-- The functions that repeat their second argument, with what they write between its texts. -/
def Builtin.separators : List (String × String) := [("repeat", ""), ("multiple", ","), ("m", ",")]

/-- The names of the functions that repeat their second argument. -/
def Builtin.repeating : List String := separators.map Prod.fst

section Unroll

variable (index total : String)

mutual

/-- Write the index in the place of the calls of `n`, and the total in that of `N`. -/
def ValueNode.unroll : ValueNode → ValueNode
  | .text value => .text value
  | .call name arguments position =>
    if Selector.stripMarker name = "n" then .text index
    else if Selector.stripMarker name = "N" then .text total
    else if Selector.stripMarker name ∈ Builtin.repeating then
      .call name (Argument.unrollRepeated arguments) position
    else .call name (Argument.unroll arguments) position

/-- Unroll the pieces of a value. -/
def ValueGroup.unroll : List ValueNode → List ValueNode
  | [] => []
  | node :: nodes => node.unroll :: ValueGroup.unroll nodes

/-- Unroll some arguments. -/
def Argument.unroll : List Argument → List Argument
  | [] => []
  | ⟨cluster, nodes⟩ :: arguments =>
    ⟨cluster, ValueGroup.unroll nodes⟩ :: Argument.unroll arguments

/-- Unroll the arguments of a repetition, all but the second one. -/
def Argument.unrollRepeated : List Argument → List Argument
  | [] => []
  | ⟨cluster, nodes⟩ :: arguments =>
    ⟨cluster, ValueGroup.unroll nodes⟩ :: Argument.unrollAfterFirst arguments

/-- Unroll the arguments of a repetition that come after the first one. -/
def Argument.unrollAfterFirst : List Argument → List Argument
  | [] => []
  | body :: arguments => body :: Argument.unroll arguments

end

end Unroll

/-- A value that repeats the index as often as the total says, after the index itself. -/
def ValueGroup.nested : ValueGroup :=
  [.call "@n" [] 0, .text "/", .call "@repeat" [⟨false, [.call "@N" [] 0]⟩,
    ⟨false, [.call "@n" [] 0]⟩] 0]

/-- The call can be unrolled: it is none of `calc`, which reads the inputs itself, and the calls of
the inputs have no arguments. -/
def Invocation.Unrollable (i : Invocation) : Prop :=
  i.name ≠ "calc" ∧ ((i.name = "n" ∨ i.name = "N") → i.arguments = [])

/-! ### Functions that ignore the inputs -/

/-- The function does the same whichever inputs it could read. -/
def EagerFunction.IgnoresInputs (f : EagerFunction) : Prop :=
  ∀ cell position extra extra' args,
    f ⟨cell, position, extra⟩ args = f ⟨cell, position, extra'⟩ args

namespace Builtin

/-- All functions on texts ignore the inputs, apart from those that read them. -/
theorem all_ignoresInputs : FunctionRegistry.builtin.All fun name f =>
    name ∉ ["n", "N", "calc"] ++ repeating →
      ∃ g : EagerFunction, f = .eager g ∧ g.IgnoresInputs := by
  have hlisted : ∀ {name : String}, name ∈ ["n", "N", "calc"] ++ repeating → ∀ f : Callable,
      name ∉ ["n", "N", "calc"] ++ repeating →
        ∃ g : EagerFunction, f = .eager g ∧ g.IgnoresInputs := fun hname _ hnot => absurd hname hnot
  refine FunctionRegistry.all_builtin ?eager ?lazy ?math
  case eager =>
    have hsame : ∀ {name : String} {f : EagerFunction}, f.IgnoresInputs →
        name ∉ ["n", "N", "calc"] ++ repeating →
          ∃ g : EagerFunction, Callable.eager f = .eager g ∧ g.IgnoresInputs :=
      fun hf _ => ⟨_, rfl, hf⟩
    refine @forall_eagerFunctions (fun name f => name ∉ ["n", "N", "calc"] ++ repeating →
      ∃ g : EagerFunction, Callable.eager f = .eager g ∧ g.IgnoresInputs)
      (fun _ _ => hsame fun _ _ _ _ _ => rfl) ?injected ?pick ?next ?random ?expression ?shape
    case injected => exact ⟨hlisted (by decide) _, hlisted (by decide) _⟩
    case pick => exact ⟨hsame fun _ _ _ _ _ => rfl, hsame fun _ _ _ _ _ => rfl⟩
    case next => exact ⟨hsame fun _ _ _ _ _ => rfl, hsame fun _ _ _ _ _ => rfl⟩
    case random => exact ⟨hsame fun _ _ _ _ _ => rfl, hsame fun _ _ _ _ _ => rfl⟩
    case expression => exact hlisted (by decide) _
    case shape => exact hsame fun _ _ _ _ args => by cases args <;> rfl
  case lazy =>
    exact @forall_lazyFunctions (fun name f => name ∉ ["n", "N", "calc"] ++ repeating →
      ∃ g : EagerFunction, Callable.lazy f = .eager g ∧ g.IgnoresInputs)
      (hlisted (by decide) _) (hlisted (by decide) _) (hlisted (by decide) _)
  case math =>
    intro f hf _
    obtain ⟨result, hresult⟩ := Math.exists_eq_pure hf
    exact ⟨f.2, rfl, fun _ _ _ _ args => by rw [hresult, hresult]⟩

/-- What is found under the name of a function that repeats. -/
theorem find?_of_mem_separators {name separator : String} (h : (name, separator) ∈ separators) :
    FunctionRegistry.builtin.find? name = some (.lazy (repeatWith name separator)) := by
  simp only [separators, List.mem_cons, Prod.mk.injEq, List.not_mem_nil, or_false] at h
  rcases h with ⟨rfl, rfl⟩ | ⟨rfl, rfl⟩ | ⟨rfl, rfl⟩ <;> rfl

/-- A repetition evaluates its first argument without inputs and its second one with some. -/
theorem repeatWith_congr (name separator : String) (call call' : Call)
    {times times' body body' : LazyArgument} (rest rest' : List LazyArgument)
    (htimes : times [] = times' [])
    (hbody : ∀ index total, body [index, total] = body' [index, total]) :
    repeatWith name separator call (times :: body :: rest) =
      repeatWith name separator call' (times' :: body' :: rest') := by
  rw [repeatWith, repeatWith, htimes]
  simp only [hbody]

/-- A number in decimal asks for that many repetitions. -/
theorem repetitions_toString {n : Nat} (h : n < 2 ^ 53) : repetitions (toString n) = some n := by
  obtain ⟨hnonneg, hwhole⟩ := Decimal.toUInt64_nearest h
  rw [repetitions, Decimal.readQuantity_toString, Option.bind_some, if_neg hnonneg, hwhole]

/-- The second argument is evaluated once for each index, up to a number within the limit. -/
theorem repeatWith_toString (name separator : String) (call : Call) {times body : LazyArgument}
    (rest : List LazyArgument) {k : Nat} (htimes : times [] = pure (toString k))
    (hk : k ≤ repeatLimit) :
    repeatWith name separator call (times :: body :: rest) =
      (fun parts => some (String.intercalate separator parts)) <$>
        (GridSize.upTo k).mapM fun i => body [toString i, toString k] := by
  have hsmall : k < 2 ^ 53 := Nat.lt_of_le_of_lt hk (by decide)
  simp only [repeatWith, htimes, pure_bind, repetitions_toString hsmall,
    if_neg (Nat.not_lt.2 hk), map_eq_pure_bind]

end Builtin

/-! ### Inputs and their texts -/

section Text

variable (cell : Cell) (index total : String) (extra : List String)

mutual

/-- A piece of a value is composed with the index and the total as it is composed with any inputs
once it is unrolled. -/
theorem ValueNode.nodeText_unroll : ∀ node : ValueNode, (∀ i ∈ node.invocations, i.Unrollable) →
    nodeText .builtin cell (node.unroll index total) extra =
      nodeText .builtin cell node [index, total]
  | .text value, _ => by
    rw [ValueNode.unroll, nodeText, nodeText]
  | .call name arguments position, h => by
    rw [ValueNode.invocations, List.forall_mem_cons] at h
    obtain ⟨⟨hcalc, hinputs⟩, harguments⟩ := h
    rw [ValueNode.unroll]
    split
    case isTrue hname =>
      -- The index is the first input.
      obtain rfl : arguments = [] := hinputs (.inl hname)
      rw [nodeText, nodeText, hname]
      rfl
    case isFalse hindex =>
    split
    case isTrue hname =>
      -- The total is the second input.
      obtain rfl : arguments = [] := hinputs (.inr hname)
      rw [nodeText, nodeText, hname]
      rfl
    case isFalse htotal =>
    split
    case isTrue hrepeats =>
      obtain ⟨⟨_, separator⟩, hmem, rfl⟩ := List.mem_map.1 hrepeats
      rw [nodeText, nodeText, Builtin.find?_of_mem_separators hmem]
      exact congrArg (fun result => do return (← result).getD "")
        (Argument.repeatWith_unroll arguments harguments _ _ _ _)
    case isFalse hrepeats =>
      rw [nodeText, nodeText]
      cases hfind : FunctionRegistry.builtin.find? (Selector.stripMarker name) with
      | none => rfl
      | some f =>
        have hother : Selector.stripMarker name ∉ ["n", "N", "calc"] ++ Builtin.repeating := by
          simp only [List.mem_append, List.mem_cons, List.not_mem_nil] at hcalc ⊢
          tauto
        obtain ⟨g, rfl, hignores⟩ := Builtin.all_ignoresInputs _ f hfind hother
        -- The function gets the same texts, and does not care for the inputs.
        simp only [Argument.argumentInputs_unroll arguments harguments,
          hignores cell position extra [index, total]]

/-- The pieces of a value are composed with the index and the total as they are once unrolled. -/
theorem ValueGroup.nodeTexts_unroll : ∀ nodes : List ValueNode,
    (∀ i ∈ ValueGroup.invocations nodes, i.Unrollable) →
      nodeTexts .builtin cell (ValueGroup.unroll index total nodes) extra =
        nodeTexts .builtin cell nodes [index, total]
  | [], _ => by
    rw [ValueGroup.unroll, nodeTexts, nodeTexts]
  | node :: nodes, h => by
    rw [ValueGroup.invocations, List.forall_mem_append] at h
    rw [ValueGroup.unroll, nodeTexts, nodeTexts, node.nodeText_unroll h.1,
      ValueGroup.nodeTexts_unroll nodes h.2]

/-- Arguments are composed with the index and the total as they are once unrolled. -/
theorem Argument.argumentInputs_unroll : ∀ arguments : List Argument,
    (∀ i ∈ Argument.invocations arguments, i.Unrollable) →
      argumentInputs .builtin cell (Argument.unroll index total arguments) extra =
        argumentInputs .builtin cell arguments [index, total]
  | [], _ => by
    rw [Argument.unroll, argumentInputs, argumentInputs]
  | ⟨cluster, nodes⟩ :: arguments, h => by
    rw [Argument.invocations, List.forall_mem_append] at h
    rw [Argument.unroll, argumentInputs, argumentInputs, ValueGroup.nodeTexts_unroll nodes h.1,
      Argument.argumentInputs_unroll arguments h.2]

/-- A repetition in the argument sees the index and the total as it does once it is unrolled: in its
first argument, while its second one sees its own. -/
theorem Argument.repeatWith_unroll : ∀ arguments : List Argument,
    (∀ i ∈ Argument.invocations arguments, i.Unrollable) →
      ∀ (name separator : String) (call call' : Call),
        Builtin.repeatWith name separator call
            (suspended .builtin cell (Argument.unrollRepeated index total arguments) extra) =
          Builtin.repeatWith name separator call'
            (suspended .builtin cell arguments [index, total])
  | [], _, name, separator, call, call' => by
    rw [Argument.unrollRepeated, suspended, suspended]
    rfl
  | [⟨cluster, nodes⟩], _, name, separator, call, call' => by
    rw [Argument.unrollRepeated, Argument.unrollAfterFirst, suspended, suspended, suspended,
      suspended]
    rfl
  | ⟨cluster, nodes⟩ :: ⟨cluster', body⟩ :: arguments, h, name, separator, call, call' => by
    rw [Argument.invocations, List.forall_mem_append] at h
    simp only [Argument.unrollRepeated, Argument.unrollAfterFirst, suspended]
    refine Builtin.repeatWith_congr name separator call call' _ _ ?_ fun index' total' => ?_
    · have htimes := ValueGroup.nodeTexts_unroll nodes h.1
      show String.join <$> nodeTexts .builtin cell (ValueGroup.unroll index total nodes) extra =
        String.join <$> nodeTexts .builtin cell nodes [index, total]
      rw [htimes]
    · -- Both runs inject the inner index and total.
      rfl

end

/-- A group is composed with the index and the total as it is composed with any inputs once it is
unrolled. -/
theorem groupText_unroll {group : ValueGroup}
    (h : ∀ i ∈ ValueGroup.invocations group, i.Unrollable) :
    groupText .builtin cell (ValueGroup.unroll index total group) extra =
      groupText .builtin cell group [index, total] := by
  rw [groupText, groupText, ValueGroup.nodeTexts_unroll cell index total extra group h]

end Text

/-! ### Repetition -/

section Repetition

variable {name separator : String} {body : ValueGroup} {k : Nat}

/-- A call that repeats its second argument composes this argument once for each index, unrolled. -/
theorem groupText_repetition (hname : (Selector.stripMarker name, separator) ∈ Builtin.separators)
    (hbody : ∀ i ∈ ValueGroup.invocations body, i.Unrollable) (hk : k ≤ Builtin.repeatLimit)
    (cell : Cell) (extra : List String) (position : Nat) (cluster cluster' : Bool) :
    groupText .builtin cell
        [.call name [⟨cluster, [.text (toString k)]⟩, ⟨cluster', body⟩] position] extra =
      String.intercalate separator <$> (GridSize.upTo k).mapM fun i =>
        groupText .builtin cell (ValueGroup.unroll (toString i) (toString k) body) extra := by
  have htimes : String.join <$> nodeTexts .builtin cell [.text (toString k)]
      (visibleInputs extra []) = pure (toString k) := by
    simp only [nodeTexts, nodeText, pure_bind, map_pure, String.join_cons, String.join_nil,
      String.append_empty]
  -- The index and the total are the inputs that the repeated argument sees.
  have hpieces : ∀ i : Nat,
      String.join <$> nodeTexts .builtin cell body (visibleInputs extra [toString i, toString k]) =
        groupText .builtin cell (ValueGroup.unroll (toString i) (toString k) body) extra :=
    fun i => (groupText_unroll cell (toString i) (toString k) extra hbody).symm
  rw [groupText, nodeTexts, nodeTexts, nodeText, Builtin.find?_of_mem_separators hname]
  simp only [suspended]
  rw [Builtin.repeatWith_toString _ _ _ _ htimes hk]
  simp only [hpieces, map_eq_pure_bind, bind_assoc, pure_bind, Option.getD_some, String.join_cons,
    String.join_nil, String.append_empty]

/-- A repetition joins the texts of its unrolled argument, one for each index, or fails with the
first of them that fails. None of them depends on the shared context or changes it. -/
theorem repetition_unrolls (hname : (Selector.stripMarker name, separator) ∈ Builtin.separators)
    (hbody : ∀ i ∈ ValueGroup.invocations body, i.Unrollable ∧ i.name ∉ Builtin.contextual)
    (hk : k ≤ Builtin.repeatLimit) (cell : Cell) (extra : List String) (position : Nat)
    (cluster cluster' : Bool) :
    ∃ piece : Nat → Except Failure String,
      (∀ i c, (groupText .builtin cell
          (ValueGroup.unroll (toString i) (toString k) body) extra).perform c = (piece i, c)) ∧
        ∀ c, (groupText .builtin cell
            [.call name [⟨cluster, [.text (toString k)]⟩, ⟨cluster', body⟩] position]
            extra).perform c =
          (String.intercalate separator <$> (GridSize.upTo k).mapM piece, c) := by
  -- The functions in the body leave the context alone, so each text has a fixed outcome.
  have hsteady : ∀ i : Nat, (groupText .builtin cell
      (ValueGroup.unroll (toString i) (toString k) body) extra).Steady := by
    intro i
    rw [groupText_unroll cell (toString i) (toString k) extra fun i hi => (hbody i hi).1, groupText]
    refine Action.Steady.compositional.map _ ?_
    refine Action.Steady.compositional.nodeTexts cell body _ fun i hi f hfind => ?_
    exact Action.Steady.compositional.all_builtin _ f hfind (hbody i hi).2
  choose piece hpiece using hsteady
  refine ⟨piece, hpiece, fun c => ?_⟩
  rw [groupText_repetition hname (fun i hi => (hbody i hi).1) hk, Action.perform_map,
    Action.perform_mapM_of_perform hpiece]

/-- The law for a repetition in a repetition. The index of the inner one stays. -/
theorem repetition_unrolls_nested :
    ValueGroup.unroll "1" "2" ValueGroup.nested =
      [.text "1", .text "/", .call "@repeat" [⟨false, [.text "2"]⟩,
        ⟨false, [.call "@n" [] 0]⟩] 0] ∧
    (("multiple", ",") ∈ Builtin.separators ∧
      (∀ i ∈ ValueGroup.invocations ValueGroup.nested, i.Unrollable ∧ i.name ∉ Builtin.contextual) ∧
      2 ≤ Builtin.repeatLimit) ∧
    ∃ piece : Nat → Except Failure String,
      (∀ i c, (groupText .builtin .discovery
          (ValueGroup.unroll (toString i) (toString 2) ValueGroup.nested) []).perform c =
            (piece i, c)) ∧
        ∀ c, (groupText .builtin .discovery
            [.call "@multiple" [⟨false, [.text (toString 2)]⟩, ⟨true, ValueGroup.nested⟩] 0]
            []).perform c =
          (String.intercalate "," <$> (GridSize.upTo 2).mapM piece, c) := by
  have hbody : ∀ i ∈ ValueGroup.invocations ValueGroup.nested, i.Unrollable ∧
      i.name ∉ Builtin.contextual := by
    simp only [ValueGroup.invocations, ValueGroup.nested, ValueNode.invocations,
      Argument.invocations, List.append_nil, List.cons_append, List.nil_append,
      List.forall_mem_cons, Invocation.Unrollable]
    refine ⟨?_, ?_, ?_, ?_, fun i hi => absurd hi List.not_mem_nil⟩ <;> decide
  exact ⟨rfl, ⟨by decide, hbody, by decide⟩,
    repetition_unrolls (by decide) hbody (by decide) .discovery [] 0 false true⟩

end Repetition

end GridStyle
