import GridStyle.Proofs.Expansion.Step
import GridStyle.Proofs.TokenTree

/-!
# Places in Token Trees

A `Place` is a token tree with one place left open. The place stands among the tokens of a list, or
among the rules of a pseudo block or of a keyframes step, so a `Filling` offers some tokens and some
rules, and `Place.fill` puts in those that fit. Two trees that differ in one place only are two
fillings of one place.

`Place.arrivals` lists how often, and in which states, a walk comes to the place.
-/

namespace GridStyle

/-- What may stand in a place: tokens if it is among tokens, rules if it is among rules. -/
structure Filling where
  tokens : List Token
  rules : List Rule

namespace Filling

/-- Nothing. -/
def nothing : Filling := ⟨[], []⟩

/-- One rule. -/
def rule (declaration : Rule) : Filling := ⟨[.rule declaration], [declaration]⟩

/-- One pseudo block, which can stand among tokens only. -/
def block (id : Nat) (list : String) (styles : List Rule) : Filling :=
  ⟨[.pseudo id list styles], []⟩

end Filling

mutual

/-- A list of tokens with an open place. -/
inductive Place where
  /-- The place is in the list. -/
  | here (before after : List Token)
  /-- The place is in a token of the list. -/
  | inside (before : List Token) (token : TokenPlace) (after : List Token)

/-- A token with an open place. -/
inductive TokenPlace where
  | rule (declaration : RulePlace)
  | pseudo (id : Nat) (selector : String) (rules : RulesPlace)
  | condition (name : String) (arguments : List Argument) (tokens : Place)
  | keyframes (name : String) (before : List Step) (step : String) (rules : RulesPlace)
    (after : List Step)

/-- A rule with an open place, which is among the tokens that it carries. -/
inductive RulePlace where
  | mk (property : String) (value : List ValueGroup) (tokens : Place)

/-- A list of rules with an open place. -/
inductive RulesPlace where
  /-- The place is in the list. -/
  | here (before after : List Rule)
  /-- The place is in a rule of the list. -/
  | inside (before : List Rule) (declaration : RulePlace) (after : List Rule)

end

variable (f : Filling)

mutual

/-- The tree with the place filled. -/
def Place.fill : Place → List Token
  | .here before after => before ++ f.tokens ++ after
  | .inside before token after => before ++ token.fill :: after

/-- The token with the place filled. -/
def TokenPlace.fill : TokenPlace → Token
  | .rule declaration => .rule declaration.fill
  | .pseudo id selector rules => .pseudo id selector rules.fill
  | .condition name arguments tokens => .condition name arguments tokens.fill
  | .keyframes name before step rules after =>
    .keyframes name (before ++ ⟨step, rules.fill⟩ :: after)

/-- The rule with the place filled. -/
def RulePlace.fill : RulePlace → RuleOf Token
  | .mk property value tokens => ⟨property, value, tokens.fill⟩

/-- The rules with the place filled. -/
def RulesPlace.fill : RulesPlace → List (RuleOf Token)
  | .here before after => before ++ f.rules ++ after
  | .inside before declaration after => before ++ declaration.fill :: after

end

mutual

/-- The place is among tokens, and not among the rules of a block or a step. -/
def Place.AmongTokens : Place → Prop
  | .here _ _ => True
  | .inside _ token _ => token.AmongTokens

@[inherit_doc Place.AmongTokens]
def TokenPlace.AmongTokens : TokenPlace → Prop
  | .rule declaration => declaration.AmongTokens
  | .pseudo _ _ rules => rules.AmongTokens
  | .condition _ _ tokens => tokens.AmongTokens
  | .keyframes _ _ _ rules _ => rules.AmongTokens

@[inherit_doc Place.AmongTokens]
def RulePlace.AmongTokens : RulePlace → Prop
  | .mk _ _ tokens => tokens.AmongTokens

@[inherit_doc Place.AmongTokens]
def RulesPlace.AmongTokens : RulesPlace → Prop
  | .here _ _ => False
  | .inside _ declaration _ => declaration.AmongTokens

end

mutual

/-- The place is in no pseudo block and in no keyframes. -/
def Place.OutsideBlocks : Place → Prop
  | .here _ _ => True
  | .inside _ token _ => token.OutsideBlocks

@[inherit_doc Place.OutsideBlocks]
def TokenPlace.OutsideBlocks : TokenPlace → Prop
  | .rule declaration => declaration.OutsideBlocks
  | .condition _ _ tokens => tokens.OutsideBlocks
  | .pseudo _ _ _ | .keyframes _ _ _ _ _ => False

@[inherit_doc Place.OutsideBlocks]
def RulePlace.OutsideBlocks : RulePlace → Prop
  | .mk _ _ tokens => tokens.OutsideBlocks

end

/-! ### Identities -/

-- The identities around the place are those in front of it and those behind it.
mutual

/-- The identities in a filled tree are those around the place and those of what stands there. -/
theorem Place.exists_ids_fill : ∀ p : Place, p.AmongTokens → ∃ front back, ∀ f : Filling,
    Token.ids (p.fill f) = front ++ Token.ids f.tokens ++ back
  | .here before after, _ =>
    ⟨Token.ids before, Token.ids after, fun f => by
      rw [Place.fill, Token.ids_append, Token.ids_append]⟩
  | .inside before token after, h => by
    obtain ⟨front, back, hids⟩ := token.exists_ids_fill h
    refine ⟨Token.ids before ++ front, back ++ Token.ids after, fun f => ?_⟩
    rw [Place.fill, Token.ids_append, Token.ids_cons, hids]
    simp only [List.append_assoc]

theorem TokenPlace.exists_ids_fill : ∀ p : TokenPlace, p.AmongTokens → ∃ front back,
    ∀ f : Filling, Token.ownIds (p.fill f) = front ++ Token.ids f.tokens ++ back
  | .rule declaration, h => declaration.exists_ids_fill h
  | .pseudo id selector rules, h => by
    -- The block around the place comes before all in it.
    obtain ⟨front, back, hids⟩ := rules.exists_ids_fill h
    exact ⟨id :: front, back, fun f => congrArg (id :: ·) (hids f)⟩
  | .condition _ _ tokens, h => tokens.exists_ids_fill h
  | .keyframes name before step rules after, h => by
    obtain ⟨front, back, hids⟩ := rules.exists_ids_fill h
    refine ⟨(Token.withinSteps before).filterMap Token.identity? ++ front,
      back ++ (Token.withinSteps after).filterMap Token.identity?, fun f => ?_⟩
    change (Token.withinSteps (before ++ ⟨step, rules.fill f⟩ :: after)).filterMap _ = _
    rw [Token.withinSteps_append, Token.withinSteps, Token.withinStep, List.filterMap_append,
      List.filterMap_append, hids]
    simp only [List.append_assoc]

theorem RulePlace.exists_ids_fill : ∀ p : RulePlace, p.AmongTokens → ∃ front back,
    ∀ f : Filling, (Token.insideRule (p.fill f)).filterMap Token.identity? =
      front ++ Token.ids f.tokens ++ back
  | .mk _ _ tokens, h => tokens.exists_ids_fill h

theorem RulesPlace.exists_ids_fill : ∀ p : RulesPlace, p.AmongTokens → ∃ front back,
    ∀ f : Filling, (Token.withinRules (p.fill f)).filterMap Token.identity? =
      front ++ Token.ids f.tokens ++ back
  | .inside before declaration after, h => by
    obtain ⟨front, back, hids⟩ := declaration.exists_ids_fill h
    refine ⟨(Token.withinRules before).filterMap Token.identity? ++ front,
      back ++ (Token.withinRules after).filterMap Token.identity?, fun f => ?_⟩
    rw [RulesPlace.fill, Token.withinRules_append, Token.withinRules, List.filterMap_append,
      List.filterMap_cons_none (by rfl), List.filterMap_append, hids]
    simp only [List.append_assoc]

end

/-! ### Arrivals -/

/-- A walk comes to a place. -/
inductive Arrival where
  /-- What stands there is composed for a selector, in a state. -/
  | composes (selector : String) (s : Expansion)
  /-- What stands there is only searched for a grid of the host. -/
  | searches (s : Expansion)

/-- The walk comes to the place as a search. -/
def Arrival.isSearch : Arrival → Bool
  | .composes _ _ => false
  | .searches _ => true

/-- The state in which what stands in the place is composed. -/
def Arrival.state? : Arrival → Option Expansion
  | .composes _ s => some s
  | .searches _ => none

/-- What a list has after a step, if it succeeds. -/
def Expanding.andThen {α β : Type} (step : Expanding α) (arrivals : α → Expansion → List β)
    (s : Expansion) : List β :=
  match step.perform s with
  | (.ok a, s') => arrivals a s'
  | (.error _, _) => []

/-- What a list has in steps that are taken for the elements of another, up to the first failure. -/
def Expanding.along {α β : Type} (step : α → Expanding Unit)
    (arrivals : α → Expansion → List β) : List α → Expansion → List β
  | [], _ => []
  | a :: as, s => arrivals a s ++ (step a).andThen (fun _ => along step arrivals as) s

section Arrivals

variable (kit : Toolkit) (cell : Cell)

open Expanding

mutual

/-- The arrivals of a walk over the filled tree, from a state on. -/
def Place.arrivals (initial : Bool) : Place → Expansion → List Arrival
  | .here before _, s =>
    (expandTokens kit cell initial before).andThen (fun _ s =>
      if initial = true ∧ s.grid.isSome then if s.hostGrid then [] else [.searches s]
      else [.composes (Selector.ofCell cell "") s]) s
  | .inside before token _, s =>
    (expandTokens kit cell initial before).andThen (fun _ s => token.arrivals initial s) s

/-- The arrivals in the walk of a token. -/
def TokenPlace.arrivals (initial : Bool) : TokenPlace → Expansion → List Arrival
  | .rule declaration, s => if initial = true ∧ s.grid.isSome then [] else declaration.arrivals s
  | .pseudo id selector rules, s =>
    let selector := Selector.normalize selector
    let special := Selector.isSpecial selector
    if (initial = true ∧ s.grid.isSome) ∨ id ∈ s.composed then []
    else along (fun part => expandRules kit cell (partSelector cell special part) (rules.fill f))
      (fun part => rules.arrivals (partSelector cell special part)) (selectorParts selector)
      (if special then s.apply (.begin id) else s)
  | .condition name arguments tokens, s =>
    (act (holds kit cell name arguments)).andThen
      (fun b s => if b then tokens.arrivals initial s else []) s
  -- The rules of keyframes are not composed by a walk.
  | .keyframes _ _ _ _ _, _ => []

/-- The arrivals in what a rule includes. -/
def RulePlace.arrivals : RulePlace → Expansion → List Arrival
  | .mk property value tokens, s =>
    if property = "@use" then
      (act (groupTexts kit.functions cell value)).andThen
        (fun _ s => tokens.arrivals s.discovering s) s
    else []

/-- The arrivals in rules that are composed for a selector. -/
def RulesPlace.arrivals (selector : String) : RulesPlace → Expansion → List Arrival
  | .here before _, s =>
    (expandRules kit cell selector before).andThen (fun _ s => [.composes selector s]) s
  | .inside before declaration _, s =>
    (expandRules kit cell selector before).andThen (fun _ s => declaration.arrivals s) s

end

/-- The arrivals of the first pass. -/
def Place.firstArrivals (seed : UInt64) (p : Place) : List Arrival :=
  p.arrivals f kit Cell.discovery true ((Expansion.ofSeed seed).enter true Cell.discovery)

/-! ### How often a walk arrives -/

theorem length_andThen_le {α β : Type} {step : Expanding α} {arrivals : α → Expansion → List β}
    {n : Nat} (h : ∀ a s, (arrivals a s).length ≤ n) (s : Expansion) :
    (step.andThen arrivals s).length ≤ n := by
  rw [andThen]
  split
  · exact h _ _
  · exact Nat.zero_le n

variable {f kit cell}

-- The recursion is on the place. Only the parts of a block make a walk come to a place more often.
mutual

/-- A walk comes to a place in no block once at most. -/
theorem Place.length_arrivals_le {initial : Bool} : ∀ p : Place, p.OutsideBlocks → ∀ s,
    (p.arrivals f kit cell initial s).length ≤ 1
  | .here before _, _, s => by
    rw [Place.arrivals]
    refine length_andThen_le (fun _ s => ?_) s
    split
    · split <;> simp
    · exact Nat.le_refl 1
  | .inside before token _, h, s => by
    rw [Place.arrivals]
    exact length_andThen_le (fun _ s => token.length_arrivals_le h s) s

theorem TokenPlace.length_arrivals_le {initial : Bool} : ∀ p : TokenPlace, p.OutsideBlocks →
    ∀ s, (p.arrivals f kit cell initial s).length ≤ 1
  | .rule declaration, h, s => by
    rw [TokenPlace.arrivals]
    split
    · exact Nat.zero_le 1
    · exact declaration.length_arrivals_le h s
  | .condition name arguments tokens, h, s => by
    rw [TokenPlace.arrivals]
    refine length_andThen_le (fun b s => ?_) s
    cases b with
    | false => exact Nat.zero_le 1
    | true => exact tokens.length_arrivals_le h s

theorem RulePlace.length_arrivals_le : ∀ p : RulePlace, p.OutsideBlocks → ∀ s,
    (p.arrivals f kit cell s).length ≤ 1
  | .mk property value tokens, h, s => by
    rw [RulePlace.arrivals]
    split
    · exact length_andThen_le (fun _ s => tokens.length_arrivals_le h s) s
    · exact Nat.zero_le 1

end

end Arrivals

end GridStyle
