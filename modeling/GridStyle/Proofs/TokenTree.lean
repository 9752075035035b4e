import GridStyle.Token.Basic
import Mathlib.Data.List.Basic
import Mathlib.Data.List.Pairwise

/-!
# Tokens at Any Depth

`Token.within` lists every token of a tree in document order: the tokens of the list, those of
conditions and inclusions, and, as rule tokens, the rules of pseudo blocks and of keyframes steps.
Conditions on trees "at any depth" are conditions on the members of this list.

`Token.ids` lists the identities of the pseudo blocks in the same order. Numbering a tree
(`Token.number`) gives its blocks consecutive numbers, and so different ones
(`nodup_ids_number`).
-/

namespace GridStyle.Token

mutual

/-- The tokens of a list and all tokens in them, in document order. -/
def within : List Token → List Token
  | [] => []
  | token :: rest => token :: (inside token ++ within rest)

/-- The tokens in a token. -/
def inside : Token → List Token
  | .rule declaration => insideRule declaration
  | .pseudo _ _ styles => withinRules styles
  | .condition _ _ styles => within styles
  | .keyframes _ steps => withinSteps steps

/-- The tokens that a rule carries. -/
def insideRule : RuleOf Token → List Token
  | ⟨_, _, styles⟩ => within styles

/-- Rules as tokens, each with the tokens that it carries. -/
def withinRules : List (RuleOf Token) → List Token
  | [] => []
  | declaration :: rest => .rule declaration :: (insideRule declaration ++ withinRules rest)

/-- The rules of a step and the tokens in them. -/
def withinStep : StepOf Token → List Token
  | ⟨_, styles⟩ => withinRules styles

/-- The rules of some steps and the tokens in them. -/
def withinSteps : List (StepOf Token) → List Token
  | [] => []
  | step :: rest => withinStep step ++ withinSteps rest

end

theorem withinRules_append (front back : List Rule) :
    withinRules (front ++ back) = withinRules front ++ withinRules back := by
  induction front with
  | nil => rfl
  | cons declaration front ih =>
    rw [List.cons_append, withinRules, withinRules, ih, List.cons_append, List.append_assoc]

theorem withinSteps_append (front back : List Step) :
    withinSteps (front ++ back) = withinSteps front ++ withinSteps back := by
  induction front with
  | nil => rfl
  | cons step front ih => rw [List.cons_append, withinSteps, withinSteps, ih, List.append_assoc]

/-! ### Conditions on all tokens -/

section Forall

variable {p : Token → Prop}

theorem forall_within_cons {token : Token} {rest : List Token} :
    (∀ t ∈ within (token :: rest), p t) ↔
      p token ∧ (∀ t ∈ inside token, p t) ∧ ∀ t ∈ within rest, p t := by
  simp only [within, List.mem_cons, List.mem_append, or_imp, forall_and, forall_eq]

theorem forall_withinRules_cons {declaration : Rule} {rest : List Rule} :
    (∀ t ∈ withinRules (declaration :: rest), p t) ↔
      p (.rule declaration) ∧ (∀ t ∈ insideRule declaration, p t) ∧
        ∀ t ∈ withinRules rest, p t := by
  simp only [withinRules, List.mem_cons, List.mem_append, or_imp, forall_and, forall_eq]

theorem forall_withinSteps_cons {step : Step} {rest : List Step} :
    (∀ t ∈ withinSteps (step :: rest), p t) ↔
      (∀ t ∈ withinRules step.styles, p t) ∧ ∀ t ∈ withinSteps rest, p t := by
  obtain ⟨name, styles⟩ := step
  simp only [withinSteps, withinStep, List.mem_append, or_imp, forall_and]

/-- What holds of all tokens holds of those of the list and of all tokens in them. -/
theorem forall_within {tokens : List Token} :
    (∀ t ∈ within tokens, p t) ↔ ∀ token ∈ tokens, p token ∧ ∀ t ∈ inside token, p t := by
  induction tokens with
  | nil => simp [within]
  | cons token rest ih => rw [forall_within_cons, ih, List.forall_mem_cons, and_assoc]

/-- What holds of all tokens in rules holds of the rules and of all tokens in them. -/
theorem forall_withinRules {styles : List Rule} :
    (∀ t ∈ withinRules styles, p t) ↔
      ∀ r ∈ styles, p (.rule r) ∧ ∀ t ∈ insideRule r, p t := by
  induction styles with
  | nil => simp [withinRules]
  | cons declaration rest ih =>
    rw [forall_withinRules_cons, ih, List.forall_mem_cons, and_assoc]

theorem forall_rules_of_forall_withinRules {styles : List Rule}
    (h : ∀ t ∈ withinRules styles, p t) : ∀ r ∈ styles, p (.rule r) :=
  fun r hr => (forall_withinRules.1 h r hr).1

/-- What holds of all tokens in steps holds of all tokens in the rules of each. -/
theorem forall_withinSteps {steps : List Step} :
    (∀ t ∈ withinSteps steps, p t) ↔ ∀ step ∈ steps, ∀ t ∈ withinRules step.styles, p t := by
  induction steps with
  | nil => simp [withinSteps]
  | cons step rest ih => rw [forall_withinSteps_cons, ih, List.forall_mem_cons]

end Forall

/-! ### Tokens in tokens -/

/-- All tokens in the tokens of the list are in the list too. -/
def Closed (tree : List Token) : Prop := ∀ t ∈ tree, t.inside ⊆ tree

theorem Closed.nil : Closed [] := fun _ ht => absurd ht List.not_mem_nil

theorem Closed.append {front back : List Token} (hfront : Closed front) (hback : Closed back) :
    Closed (front ++ back) := by
  intro t ht
  obtain ht | ht := List.mem_append.1 ht
  · exact List.Subset.trans (hfront t ht) (List.subset_append_left front back)
  · exact List.Subset.trans (hback t ht) (List.subset_append_right front back)

theorem Closed.cons {token : Token} {rest : List Token} (hinside : token.inside ⊆ rest)
    (hrest : Closed rest) : Closed (token :: rest) := by
  intro t ht
  refine List.Subset.trans ?_ (List.subset_cons_self token rest)
  obtain rfl | ht := List.mem_cons.1 ht
  · exact hinside
  · exact hrest t ht

mutual

/-- The tokens of a tree at all depths are all that there is in them. -/
theorem closed_within : ∀ tokens : List Token, Closed (within tokens)
  | [] => Closed.nil
  | token :: rest =>
    .cons (List.subset_append_left _ _) ((closed_inside token).append (closed_within rest))

theorem closed_inside : ∀ token : Token, Closed token.inside
  | .rule declaration => closed_insideRule declaration
  | .pseudo _ _ styles => closed_withinRules styles
  | .condition _ _ styles => closed_within styles
  | .keyframes _ steps => closed_withinSteps steps

theorem closed_insideRule : ∀ declaration : RuleOf Token, Closed (insideRule declaration)
  | ⟨_, _, styles⟩ => closed_within styles

theorem closed_withinRules : ∀ styles : List (RuleOf Token), Closed (withinRules styles)
  | [] => Closed.nil
  | declaration :: rest =>
    .cons (List.subset_append_left _ _)
      ((closed_insideRule declaration).append (closed_withinRules rest))

theorem closed_withinStep : ∀ step : StepOf Token, Closed (withinStep step)
  | ⟨_, styles⟩ => closed_withinRules styles

theorem closed_withinSteps : ∀ steps : List (StepOf Token), Closed (withinSteps steps)
  | [] => Closed.nil
  | step :: rest => (closed_withinStep step).append (closed_withinSteps rest)

end

/-! ### Identities -/

/-- The identity of a pseudo block. -/
def identity? : Token → Option Nat
  | .pseudo id _ _ => some id
  | _ => none

/-- The identities of the pseudo blocks of a tree, in document order. -/
def ids (tokens : List Token) : List Nat := (within tokens).filterMap identity?

/-- The identities of the pseudo blocks of a token: its own and those in it. -/
def ownIds (token : Token) : List Nat := (token :: inside token).filterMap identity?

theorem ids_cons (token : Token) (rest : List Token) :
    ids (token :: rest) = ownIds token ++ ids rest := by
  rw [ids, within, ← List.cons_append, List.filterMap_append]
  rfl

theorem ids_append (front back : List Token) : ids (front ++ back) = ids front ++ ids back := by
  induction front with
  | nil => rfl
  | cons token front ih => rw [List.cons_append, ids_cons, ids_cons, ih, List.append_assoc]

/-- Where all identities are different, a block is known by its identity. -/
theorem pseudo_eq_of_nodup_ids {tokens : List Token} (h : (ids tokens).Nodup) {id : Nat}
    {selector selector' : String} {styles styles' : List Rule}
    (hmem : .pseudo id selector styles ∈ within tokens)
    (hmem' : .pseudo id selector' styles' ∈ within tokens) :
    selector = selector' ∧ styles = styles' := by
  rw [ids, List.Nodup, List.pairwise_filterMap] at h
  by_contra hne
  -- Two different tokens of the tree would have the same identity.
  have hdiff : Token.pseudo id selector styles ≠ .pseudo id selector' styles' := by
    intro heq
    rw [Token.pseudo.injEq] at heq
    exact hne heq.2
  have hsymm : Std.Symm fun a b : Token =>
      ∀ i, a.identity? = some i → ∀ j, b.identity? = some j → i ≠ j :=
    ⟨fun a b hab i hi j hj => (hab j hj i hi).symm⟩
  exact h.forall hmem hmem' hdiff id rfl id rfl rfl

/-- Consecutive numbers in front of consecutive numbers. -/
private theorem range'_append_range' (next m n : Nat) :
    List.range' next m ++ List.range' (next + m) n = List.range' next (m + n) := by
  simp

theorem number_cons (next : Nat) (token : Token) (rest : List Token) :
    number next (token :: rest) =
      ((numberToken next token).1 :: (number (numberToken next token).2 rest).1,
        (number (numberToken next token).2 rest).2) := rfl

theorem numberRules_cons (next : Nat) (declaration : Rule) (rest : List Rule) :
    numberRules next (declaration :: rest) =
      ((numberRule next declaration).1 :: (numberRules (numberRule next declaration).2 rest).1,
        (numberRules (numberRule next declaration).2 rest).2) := rfl

theorem numberSteps_cons (next : Nat) (step : Step) (rest : List Step) :
    numberSteps next (step :: rest) =
      ((numberStep next step).1 :: (numberSteps (numberStep next step).2 rest).1,
        (numberSteps (numberStep next step).2 rest).2) := rfl

mutual

/-- Numbering a tree from a number on gives its blocks the numbers from there to the first one
that is left. -/
theorem ids_number (next : Nat) : ∀ tokens : List Token,
    ∃ n, (number next tokens).2 = next + n ∧
      ids (number next tokens).1 = List.range' next n
  | [] => ⟨0, rfl, rfl⟩
  | token :: rest => by
    obtain ⟨m, hm, htoken⟩ := ids_numberToken next token
    obtain ⟨n, hn, hrest⟩ := ids_number (next + m) rest
    refine ⟨m + n, ?_, ?_⟩
    · rw [number_cons, hm, hn, Nat.add_assoc]
    · rw [number_cons, hm, ids_cons, htoken, hrest, range'_append_range']

/-- Numbering a token numbers its own block, if it is one, and then those in it. -/
theorem ids_numberToken (next : Nat) : ∀ token : Token,
    ∃ n, (numberToken next token).2 = next + n ∧
      ownIds (numberToken next token).1 = List.range' next n
  | .rule declaration => by
    obtain ⟨n, hn, hids⟩ := ids_numberRule next declaration
    exact ⟨n, hn, hids⟩
  | .pseudo id selector styles => by
    -- The block itself has the first number, and the blocks in it the next ones.
    obtain ⟨n, hn, hids⟩ := ids_numberRules (next + 1) styles
    refine ⟨1 + n, ?_, ?_⟩
    · rw [numberToken, hn, Nat.add_assoc]
    · rw [Nat.add_comm, List.range'_succ]
      simpa [numberToken, ownIds, inside, identity?] using hids
  | .condition name arguments styles => by
    obtain ⟨n, hn, hids⟩ := ids_number next styles
    exact ⟨n, hn, hids⟩
  | .keyframes name steps => by
    obtain ⟨n, hn, hids⟩ := ids_numberSteps next steps
    exact ⟨n, hn, hids⟩

/-- Numbering a rule numbers the blocks that it includes. -/
theorem ids_numberRule (next : Nat) : ∀ declaration : RuleOf Token,
    ∃ n, (numberRule next declaration).2 = next + n ∧
      (insideRule (numberRule next declaration).1).filterMap identity? = List.range' next n
  | ⟨property, value, styles⟩ => by
    obtain ⟨n, hn, hids⟩ := ids_number next styles
    exact ⟨n, hn, hids⟩

/-- Numbering rules numbers the blocks that they include. -/
theorem ids_numberRules (next : Nat) : ∀ styles : List (RuleOf Token),
    ∃ n, (numberRules next styles).2 = next + n ∧
      (withinRules (numberRules next styles).1).filterMap identity? = List.range' next n
  | [] => ⟨0, rfl, rfl⟩
  | declaration :: rest => by
    obtain ⟨m, hm, hdeclaration⟩ := ids_numberRule next declaration
    obtain ⟨n, hn, hrest⟩ := ids_numberRules (next + m) rest
    refine ⟨m + n, ?_, ?_⟩
    · rw [numberRules_cons, hm, hn, Nat.add_assoc]
    · rw [numberRules_cons, hm, withinRules, List.filterMap_cons_none (by rfl),
        List.filterMap_append, hdeclaration, hrest, range'_append_range']

/-- Numbering a step numbers the blocks that its rules include. -/
theorem ids_numberStep (next : Nat) : ∀ step : StepOf Token,
    ∃ n, (numberStep next step).2 = next + n ∧
      (withinStep (numberStep next step).1).filterMap identity? = List.range' next n
  | ⟨name, styles⟩ => by
    obtain ⟨n, hn, hids⟩ := ids_numberRules next styles
    exact ⟨n, hn, hids⟩

/-- Numbering steps numbers the blocks that their rules include. -/
theorem ids_numberSteps (next : Nat) : ∀ steps : List (StepOf Token),
    ∃ n, (numberSteps next steps).2 = next + n ∧
      (withinSteps (numberSteps next steps).1).filterMap identity? = List.range' next n
  | [] => ⟨0, rfl, rfl⟩
  | step :: rest => by
    obtain ⟨m, hm, hstep⟩ := ids_numberStep next step
    obtain ⟨n, hn, hrest⟩ := ids_numberSteps (next + m) rest
    refine ⟨m + n, ?_, ?_⟩
    · rw [numberSteps_cons, hm, hn, Nat.add_assoc]
    · rw [numberSteps_cons, hm, withinSteps, List.filterMap_append, hstep, hrest,
        range'_append_range']

end

/-- Numbering gives the blocks of a tree different identities. -/
theorem nodup_ids_number (next : Nat) (tokens : List Token) :
    (ids (number next tokens).1).Nodup := by
  obtain ⟨n, -, hids⟩ := ids_number next tokens
  rw [hids]
  exact List.nodup_range'

end GridStyle.Token
