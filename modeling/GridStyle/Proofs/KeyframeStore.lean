import GridStyle.Expansion.KeyframeStore
import GridStyle.Proofs.TokenTree

/-!
# Registering Keyframes Again

The keyframes of a token list are registered each time the list is walked. The first time adds
those whose names are new, and every further time adds nothing (`registerAll_registerAll`).
-/

namespace GridStyle

/-- The keyframes definition that a token is. -/
def Token.keyframes? : Token → Option Keyframes
  | .keyframes name steps => some ⟨name, steps⟩
  | _ => none

/-- The keyframes definitions among the tokens of a list. -/
def Token.definitions (tokens : List Token) : List Keyframes := tokens.filterMap Token.keyframes?

theorem Token.definitions_cons (token : Token) (rest : List Token) :
    definitions (token :: rest) = token.keyframes?.toList ++ definitions rest := by
  rw [definitions, List.filterMap_cons]
  cases token.keyframes? <;> rfl

namespace KeyframeStore

variable {s : KeyframeStore}

/-- Register several definitions in order. -/
def registerAll (s : KeyframeStore) (definitions : List Keyframes) : KeyframeStore :=
  definitions.foldl register s

@[simp]
theorem registerAll_cons (k : Keyframes) (definitions : List Keyframes) :
    s.registerAll (k :: definitions) = (s.register k).registerAll definitions := rfl

theorem registerAll_append (front back : List Keyframes) :
    s.registerAll (front ++ back) = (s.registerAll front).registerAll back := by
  rw [registerAll, List.foldl_append]
  rfl

/-- A name that has a definition keeps one. -/
theorem contains_register {name : String} (h : s.contains name = true) (k : Keyframes) :
    (s.register k).contains name = true := by
  unfold register
  split
  · exact h
  · rw [contains, List.any_append, ← contains, h, Bool.true_or]

theorem contains_registerAll {name : String} (h : s.contains name = true)
    (definitions : List Keyframes) : (s.registerAll definitions).contains name = true := by
  induction definitions generalizing s with
  | nil => exact h
  | cons k definitions ih => exact ih (contains_register h k)

/-- All names that are registered have definitions. -/
theorem contains_registerAll_of_mem {k : Keyframes} {definitions : List Keyframes}
    (h : k ∈ definitions) : (s.registerAll definitions).contains k.name = true := by
  induction definitions generalizing s with
  | nil => exact absurd h List.not_mem_nil
  | cons k' definitions ih =>
    obtain rfl | hmem := List.mem_cons.1 h
    · exact contains_registerAll (contains_register_self s k) definitions
    · exact ih hmem

/-- Nothing is added to a store that has definitions for all names. -/
theorem registerAll_eq_self {definitions : List Keyframes}
    (h : ∀ k ∈ definitions, s.contains k.name = true) : s.registerAll definitions = s := by
  induction definitions with
  | nil => rfl
  | cons k definitions ih =>
    rw [List.forall_mem_cons] at h
    rw [registerAll_cons, register, if_pos h.1]
    exact ih h.2

/-- Registering the same definitions again adds nothing. -/
theorem registerAll_registerAll (definitions : List Keyframes) :
    (s.registerAll definitions).registerAll definitions = s.registerAll definitions :=
  registerAll_eq_self fun _ hk => contains_registerAll_of_mem hk

/-- Registering one more definition before or after what a store took over is the same. -/
theorem registerAll_definitions_register (known : KeyframeStore) (k : Keyframes) :
    known.registerAll (s.register k).definitions =
      (known.registerAll s.definitions).register k := by
  unfold register
  by_cases hname : s.contains k.name = true
  · -- Both stores have a definition of the name.
    rw [contains, List.any_eq_true] at hname
    obtain ⟨k', hk', heq⟩ := hname
    rw [beq_iff_eq] at heq
    have hboth : (known.registerAll s.definitions).contains k.name = true :=
      heq ▸ contains_registerAll_of_mem hk'
    rw [if_pos hboth, if_pos]
    rw [contains, List.any_eq_true]
    exact ⟨k', hk', beq_iff_eq.2 heq⟩
  · rw [if_neg hname, registerAll_append]
    rfl

/-- Definitions with new names are added as they are. -/
theorem registerAll_eq_append {definitions : List Keyframes}
    (h : (s.names ++ definitions.map (·.name)).Nodup) :
    s.registerAll definitions = ⟨s.definitions ++ definitions⟩ := by
  induction definitions generalizing s with
  | nil => rw [List.append_nil]; rfl
  | cons k definitions ih =>
    have hnew : ¬ s.contains k.name = true := by
      rw [contains, List.any_eq_true]
      rintro ⟨k', hk', heq⟩
      refine (List.nodup_append.1 h).2.2 k'.name (List.mem_map_of_mem hk') k.name ?_
        (beq_iff_eq.1 heq)
      rw [List.map_cons]
      exact List.mem_cons_self
    rw [registerAll_cons, register, if_neg hnew, ih, List.append_assoc]
    · rfl
    · rw [names, List.map_append, List.append_assoc]
      exact h

/-- A store that begins with the known definitions is what they and its own come to. -/
theorem registerAll_of_isPrefix {known : KeyframeStore} (hnodup : s.names.Nodup)
    (h : known.definitions <+: s.definitions) : known.registerAll s.definitions = s := by
  obtain ⟨later, heq⟩ := h
  have hsplit : s.names = known.names ++ later.map (·.name) := by
    rw [names, ← heq, List.map_append]
    rfl
  have hself : known.registerAll known.definitions = known := by
    refine registerAll_eq_self fun k hk => ?_
    rw [contains, List.any_eq_true]
    exact ⟨k, hk, beq_self_eq_true _⟩
  rw [← heq, registerAll_append, hself, registerAll_eq_append (hsplit ▸ hnodup), heq]

/-- Only what is registered becomes a definition. -/
theorem mem_definitions_registerAll {k : Keyframes} {definitions : List Keyframes}
    (h : k ∈ (s.registerAll definitions).definitions) :
    k ∈ s.definitions ∨ k ∈ definitions := by
  induction definitions generalizing s with
  | nil => exact .inl h
  | cons k' definitions ih =>
    obtain hold | hmem := ih h
    · -- Registering adds one definition at most.
      unfold register at hold
      split at hold
      · exact .inl hold
      · rw [List.mem_append, List.mem_singleton] at hold
        obtain hold | rfl := hold
        · exact .inl hold
        · exact .inr List.mem_cons_self
    · exact .inr (List.mem_cons_of_mem k' hmem)

end KeyframeStore

end GridStyle
