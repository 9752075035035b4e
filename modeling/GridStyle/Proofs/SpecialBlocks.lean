import GridStyle.Proofs.Expansion.EventLaw
import GridStyle.Proofs.Expansion.Lockstep
import GridStyle.Proofs.Expansion.Search
import GridStyle.Proofs.RuleStore
import GridStyle.Proofs.Steady

/-!
# Special Blocks Are Composed Once

A block for the host or the container is composed at the first visit of a walk, in whichever pass
and cell that is, and never again. So the declarations of a special selector are the runs of the
first visits, in their order, each run in one piece. Besides, the host's selector can get one
sizing, which never stands inside a run: that of the grid directive that was composed first of all,
if it is one of a cell.

* `Composes`: the runs that the special selectors get between two states.
* `emits_expandTokens`: a walk composes the special blocks of its first visits.
* `special_blocks_once`: the special selectors of a stylesheet.
-/

namespace GridStyle

/-- The declarations of a selector. -/
def Expansion.bucket (s : Expansion) (selector : String) : List String :=
  (s.rules.get? selector).getD []

theorem Expansion.bucket_push (s : Expansion) (selector text other : String) :
    (s.push selector text).bucket other =
      s.bucket other ++ if text ≠ "" ∧ selector = other then [text] else [] := by
  rw [bucket, push, RuleStore.get?_push]
  split
  · rfl
  · rw [List.append_nil]
    rfl

/-- A generation begins with an empty store. -/
theorem Expansion.bucket_ofSeed (seed : UInt64) (selector : String) :
    (ofSeed seed).bucket selector = [] := by
  rw [bucket, ofSeed, RuleStore.get?_empty]
  rfl

/-! ### What a selector gets -/

/-- The sizing of the first of some grid directives, if it is one of a cell. -/
def IsMovedSizing (ds : List (String × String)) (sizing : List String) : Prop :=
  ∃ d, ds.head? = some d ∧ Selector.isHost d.1 = false ∧
    sizing = [(Directive.readGrid true d.2).2]

/-- Between two states, while some grid directives are composed, a selector gets some runs in
order, each in one piece, and before, between or after them one sizing at most. Only the host's
selector gets a sizing, that of the first directive, and only if none was composed before. -/
def Gets (s : Expansion) (ds : List (String × String)) (s' : Expansion) (selector : String)
    (runs : List (List String)) : Prop :=
  ∃ early late sizing, runs = early ++ late ∧
    s'.bucket selector = s.bucket selector ++ (early.flatten ++ sizing ++ late.flatten) ∧
    (sizing = [] ∨ s.gridDefined = false ∧ selector = Selector.host ∧ IsMovedSizing ds sizing)

/-- A grid directive is defined after the first one. -/
def DefinedAfter (s : Expansion) (ds : List (String × String)) (s' : Expansion) : Prop :=
  s'.gridDefined = (s.gridDefined || !ds.isEmpty)

theorem DefinedAfter.of_eq {s s' : Expansion} (h : s'.gridDefined = s.gridDefined) :
    DefinedAfter s [] s' :=
  h.trans (Bool.or_false _).symm

theorem DefinedAfter.trans {s s₁ s' : Expansion} {ds ds' : List (String × String)}
    (h : DefinedAfter s ds s₁) (h' : DefinedAfter s₁ ds' s') : DefinedAfter s (ds ++ ds') s' := by
  rw [DefinedAfter, h', h, Bool.or_assoc]
  cases ds <;> rfl

section Gets

variable {s s₁ s' : Expansion} {ds ds' : List (String × String)} {selector : String}
  {runs runs' : List (List String)}

theorem Gets.of_bucket_eq (ds : List (String × String))
    (h : s'.bucket selector = s.bucket selector) : Gets s ds s' selector [] :=
  ⟨[], [], [], rfl, by rw [h]; simp, .inl rfl⟩

/-- A selector gets one run. -/
theorem Gets.run {texts : List String} (ds : List (String × String))
    (h : s'.bucket selector = s.bucket selector ++ texts) : Gets s ds s' selector [texts] :=
  ⟨[texts], [], [], rfl, by rw [h]; simp, .inl rfl⟩

/-- Runs of one stretch, and then those of the next. -/
theorem Gets.trans (h : Gets s ds s₁ selector runs) (h' : Gets s₁ ds' s' selector runs')
    (hdefined : DefinedAfter s ds s₁) : Gets s (ds ++ ds') s' selector (runs ++ runs') := by
  obtain ⟨early, late, sizing, rfl, hbucket, hsizing⟩ := h
  obtain ⟨early', late', sizing', rfl, hbucket', hsizing'⟩ := h'
  obtain rfl | ⟨hundefined, hhost, d, hd, hmoved⟩ := hsizing
  · refine ⟨early ++ late ++ early', late', sizing', by simp, ?_, ?_⟩
    · rw [hbucket', hbucket]
      simp
    · -- A sizing of the second stretch needs that no directive was composed before both.
      obtain rfl | ⟨hundefined₁, hhost, hmoved⟩ := hsizing'
      · exact .inl rfl
      · rw [hdefined, Bool.or_eq_false_iff, Bool.not_eq_false', List.isEmpty_iff] at hundefined₁
        obtain ⟨hundefined, rfl⟩ := hundefined₁
        exact .inr ⟨hundefined, hhost, hmoved⟩
  · -- The sizing stands in the first stretch, so there is none in the second.
    obtain ⟨rest, rfl⟩ := List.head?_eq_some_iff.1 hd
    obtain rfl | ⟨hundefined₁, -⟩ := hsizing'
    · refine ⟨early, late ++ (early' ++ late'), _, by simp, ?_,
        .inr ⟨hundefined, hhost, d, rfl, hmoved⟩⟩
      rw [hbucket', hbucket]
      simp
    · rw [hdefined, List.isEmpty_cons, Bool.not_false, Bool.or_true] at hundefined₁
      exact absurd hundefined₁ (by decide)

end Gets

/-- Between two states, while some grid directives are composed, the special selectors get some
runs. -/
structure Composes (runs : List Run) (s : Expansion) (ds : List (String × String))
    (s' : Expansion) : Prop where
  /-- Every special selector gets its runs. -/
  gets : ∀ selector, Selector.isSpecial selector = true →
    Gets s ds s' selector (runsInto selector runs)
  /-- A grid directive is defined after the first one. -/
  defined : DefinedAfter s ds s'

theorem Composes.refl (s : Expansion) : Composes [] s [] s :=
  ⟨fun _ _ => Gets.of_bucket_eq [] rfl, .of_eq rfl⟩

theorem Composes.trans {runs runs' : List Run} {s s₁ s' : Expansion}
    {ds ds' : List (String × String)} (h : Composes runs s ds s₁) (h' : Composes runs' s₁ ds' s') :
    Composes (runs ++ runs') s (ds ++ ds') s' := by
  refine ⟨fun selector hspecial => ?_, h.defined.trans h'.defined⟩
  rw [runsInto, List.filterMap_append]
  exact (h.gets selector hspecial).trans (h'.gets selector hspecial) h.defined

/-! ### Rules for one selector -/

/-- Rules were composed for a selector, some of them grid directives: the selector gets their
texts, and no other special selector gets a run. -/
structure ComposesFor (target : String) (texts : List String) (s : Expansion)
    (ds : List (String × String)) (s' : Expansion) : Prop where
  /-- The selector gets the texts that are not empty. -/
  own : s'.bucket target = s.bucket target ++ texts.filter (· ≠ "")
  /-- Other selectors get no run. -/
  other : ∀ selector, selector ≠ target → Gets s ds s' selector []
  /-- A grid directive is defined after the first one. -/
  defined : DefinedAfter s ds s'
  /-- The same blocks are composed. -/
  composed : s'.composed = s.composed

namespace ComposesFor

variable {target : String} {texts texts' : List String} {s s₁ s' : Expansion}
  {ds ds' : List (String × String)}

/-- Nothing is composed if the declarations stay. -/
theorem of_rules_eq (target : String) (hrules : s'.rules = s.rules)
    (hdefined : DefinedAfter s ds s') (hcomposed : s'.composed = s.composed) :
    ComposesFor target [] s ds s' := by
  have hbucket : ∀ selector, s'.bucket selector = s.bucket selector := by
    intro selector
    rw [Expansion.bucket, hrules, Expansion.bucket]
  refine ⟨?_, fun selector _ => Gets.of_bucket_eq ds (hbucket selector), hdefined, hcomposed⟩
  rw [hbucket, List.filter_nil, List.append_nil]

theorem refl (target : String) (s : Expansion) : ComposesFor target [] s [] s :=
  of_rules_eq target rfl (.of_eq rfl) rfl

/-- A declaration goes to its selector, unless it is empty. -/
theorem push (target text : String) (s : Expansion) :
    ComposesFor target [text] s [] (s.push target text) := by
  refine ⟨?_, fun selector hne => Gets.of_bucket_eq [] ?_, .of_eq rfl, rfl⟩
  · rw [Expansion.bucket_push]
    by_cases hempty : text = "" <;> simp [hempty]
  · rw [Expansion.bucket_push, if_neg fun h => hne h.2.symm, List.append_nil]

theorem trans (h : ComposesFor target texts s ds s₁) (h' : ComposesFor target texts' s₁ ds' s') :
    ComposesFor target (texts ++ texts') s (ds ++ ds') s' := by
  refine ⟨?_, fun selector hne => ?_, h.defined.trans h'.defined,
    h'.composed.trans h.composed⟩
  · rw [h'.own, h.own, List.filter_append, List.append_assoc]
  · exact (h.other selector hne).trans (h'.other selector hne) h.defined

/-- A special selector gets one run. -/
theorem composes (h : ComposesFor target texts s ds s') :
    Composes [(target, texts.filter (· ≠ ""))] s ds s' := by
  refine ⟨fun selector _ => ?_, h.defined⟩
  by_cases heq : target = selector
  · rw [runsInto, List.filterMap_cons_some (by rw [if_pos heq]), List.filterMap_nil, ← heq]
    exact Gets.run ds h.own
  · rw [runsInto, List.filterMap_cons_none (by rw [if_neg heq]), List.filterMap_nil]
    exact h.other selector (Ne.symm heq)

/-- If the selector is not special, no special selector gets a run. -/
theorem composes_nil (h : ComposesFor target texts s ds s')
    (htarget : Selector.isSpecial target = false) : Composes [] s ds s' := by
  refine ⟨fun selector hspecial => h.other selector ?_, h.defined⟩
  rintro rfl
  rw [htarget] at hspecial
  exact absurd hspecial (by decide)

end ComposesFor

/-- A grid directive of the host gives no selector anything. -/
theorem composesFor_setHostGrid (target value : String) (size : GridSize) (s : Expansion) :
    ComposesFor target [] s [(target, value)] (s.setHostGrid size) :=
  ComposesFor.of_rules_eq target rfl (Bool.or_true _).symm rfl

/-- A grid directive of a cell gives the host's selector the sizing, if it is the first one. -/
theorem composesFor_setCellGrid {target : String} (hcell : Selector.isHost target = false)
    {value sizing : String} {size : GridSize}
    (hread : Directive.readGrid true value = (size, sizing)) (s : Expansion) :
    ComposesFor target [] s [(target, value)] (s.setCellGrid size sizing) := by
  rw [Expansion.setCellGrid]
  split
  · next hdefined =>
    refine ComposesFor.of_rules_eq target rfl ?_ rfl
    rw [DefinedAfter, hdefined, Bool.true_or]
  · next hundefined =>
    rw [Bool.not_eq_true] at hundefined
    -- The sizing goes to the host's selector, whichever the directive was composed for.
    have hbucket := s.bucket_push Selector.host sizing
    refine ⟨?_, fun selector _ => ?_, (Bool.or_true _).symm, rfl⟩
    · rw [List.filter_nil, List.append_nil]
      refine (hbucket target).trans ?_
      rw [if_neg, List.append_nil]
      rintro ⟨-, rfl⟩
      exact absurd hcell (by decide)
    · by_cases hsizing : sizing ≠ "" ∧ Selector.host = selector
      · refine ⟨[], [], [sizing], rfl, ?_,
          .inr ⟨hundefined, hsizing.2.symm, _, rfl, hcell, by rw [hread]⟩⟩
        refine (hbucket selector).trans ?_
        rw [if_pos hsizing]
        rfl
      · refine Gets.of_bucket_eq _ ((hbucket selector).trans ?_)
        rw [if_neg hsizing, List.append_nil]

/-- Noting a feature gives no selector anything. -/
theorem composesFor_note (target : String) (kind : PropertyKind) (s : Expansion) :
    ComposesFor target [] s [] (s.apply (.note kind)) := by
  cases kind <;> exact ComposesFor.of_rules_eq target rfl (.of_eq rfl) rfl

section Rules

variable {kit : Toolkit} {cell : Cell}

open Expanding

/-- The grid directive of a rule gives other selectors no run, and its own selector nothing. -/
theorem composesFor_gridChanges (kit : Toolkit) (cell : Cell) (target property : String)
    (texts : List String) (s : Expansion) :
    ComposesFor target [] s (directives [ruleEvent kit cell target property texts])
      (s.applyAll (gridChanges (some target) property
        (propertyValue (PropertyKind.ofName property) cell texts))) := by
  rw [gridChanges, ruleEvent]
  generalize propertyValue (PropertyKind.ofName property) cell texts = value
  by_cases hgrid : property = "@grid"
  · obtain ⟨size, sizing, hread⟩ :
        ∃ size sizing, Directive.readGrid true value = (size, sizing) := ⟨_, _, rfl⟩
    rw [if_pos hgrid, if_pos hgrid, hread, Option.any_some]
    cases hhost : Selector.isHost target with
    | true => exact composesFor_setHostGrid target value size s
    | false => exact composesFor_setCellGrid hhost hread s
  · rw [if_neg hgrid, if_neg hgrid]
    exact ComposesFor.refl target s

/-- A rule that includes nothing gives its selector its text. -/
theorem composesFor_composeRule {target text : String} {declaration : Rule} {s s' : Expansion}
    (huse : declaration.property ≠ "@use")
    (h : (composeRule kit cell (some target) declaration).perform s = (.ok text, s')) :
    ComposesFor target [text] s (directives (ruleEvents kit cell target declaration s))
      (s'.push target text) := by
  obtain ⟨texts, c, hc, -, rfl⟩ := (perform_composeRule_ok kit cell huse).1 h
  rw [ruleEvents_of_ne huse hc]
  have hcontext : ComposesFor target [] s [] (s.withContext c) :=
    ComposesFor.of_rules_eq target rfl (.of_eq rfl) rfl
  have hnote := hcontext.trans
    (composesFor_note target (PropertyKind.ofName declaration.property) (s.withContext c))
  have hgrid := hnote.trans
    (composesFor_gridChanges kit cell target declaration.property texts _)
  have hpush := hgrid.trans (ComposesFor.push target text _)
  simpa only [List.nil_append, List.append_nil] using hpush

/-- Rules that include nothing give their selector their texts. -/
theorem composesFor_expandRules {target : String} {styles : List Rule} {s s' : Expansion}
    (huse : ∀ r ∈ styles, r.property ≠ "@use")
    (h : (expandRules kit cell target styles).perform s = (.ok (), s')) :
    ComposesFor target (composedTexts kit cell target styles s) s
      (directives (rulesEvents kit cell target styles s)) s' := by
  induction styles generalizing s with
  | nil =>
    rw [expandRules, perform_pure_ok] at h
    obtain ⟨-, rfl⟩ := h
    rw [rulesEvents]
    exact ComposesFor.refl target s
  | cons declaration rest ih =>
    rw [List.forall_mem_cons] at huse
    rw [expandRules, perform_bind_ok] at h
    obtain ⟨text, s₁, hrule, hrest⟩ := h
    rw [perform_modify_bind] at hrest
    have hdeclare : (declareRule kit cell target declaration).perform s =
        (.ok (), s₁.push target text) := by
      rw [declareRule, perform_bind_ok]
      exact ⟨text, s₁, hrule, perform_modify_ok.2 rfl⟩
    rw [composedTexts, hrule, rulesEvents, hdeclare, directives_append]
    exact (composesFor_composeRule huse.1 hrule).trans (ih huse.2 hrest)

/-- The rules of a block are composed for every part of its selector. If the block is special, the
parts get runs. -/
theorem composes_parts {special : Bool} {styles : List Rule} {parts : List String}
    {s s' : Expansion} (huse : ∀ r ∈ styles, r.property ≠ "@use")
    (h : (parts.forM fun part =>
      expandRules kit cell (partSelector cell special part) styles).perform s =
        (.ok PUnit.unit, s')) :
    Composes (if special then partRuns kit cell styles parts s else []) s
        (directives (stages
          (fun part => rulesEvents kit cell (partSelector cell special part) styles)
          (fun part => expandRules kit cell (partSelector cell special part) styles) parts s)) s' ∧
      s'.composed = s.composed := by
  induction parts generalizing s with
  | nil =>
    rw [perform_forM_nil_ok] at h
    subst h
    rw [partRuns, ite_self]
    exact ⟨Composes.refl s, rfl⟩
  | cons part rest ih =>
    rw [perform_forM_cons, perform_bind_ok] at h
    obtain ⟨_, s₁, hpart, hrest⟩ := h
    have hfor := composesFor_expandRules huse hpart
    obtain ⟨hruns, hcomposed⟩ := ih hrest
    refine ⟨?_, hcomposed.trans hfor.composed⟩
    rw [stages, hpart, directives_append]
    cases special with
    | true =>
      -- The part is written with the host's own name, and gets a run.
      rw [partSelector, if_pos rfl] at hpart hfor
      rw [if_pos rfl] at hruns ⊢
      rw [partRuns, hpart]
      exact hfor.composes.trans hruns
    | false =>
      -- The part belongs to the cell.
      rw [partSelector, if_neg Bool.false_ne_true] at hfor
      rw [if_neg Bool.false_ne_true] at hruns ⊢
      exact (hfor.composes_nil (Selector.isSpecial_ofCell cell part)).trans hruns

end Rules

/-! ### Walks -/

/-- Between two states the special blocks of some visits were composed, each at its first visit if
it was not composed before, and some grid directives. -/
structure Emits (kit : Toolkit) (vs : List Visit) (s : Expansion) (ds : List (String × String))
    (s' : Expansion) : Prop where
  /-- The special blocks that were visited count as composed. -/
  seen : SeenAfter s.composed vs s'.composed
  /-- The special selectors get the runs of the first visits. -/
  composes : Composes ((firsts s.composed vs).flatMap (Visit.runs kit)) s ds s'

namespace Emits

variable {kit : Toolkit} {vs vs' : List Visit} {s s₁ s' : Expansion}
  {ds ds' : List (String × String)}

/-- Where no block is visited no special selector gets a run. -/
theorem of_composes_nil (hcomposed : s'.composed = s.composed) (h : Composes [] s ds s') :
    Emits kit [] s ds s' := by
  refine ⟨fun id => ?_, h⟩
  rw [hcomposed]
  simp

theorem refl (kit : Toolkit) (s : Expansion) : Emits kit [] s [] s :=
  of_composes_nil rfl (Composes.refl s)

/-- Nothing is composed if the declarations stay. -/
theorem of_rules_eq (hrules : s'.rules = s.rules) (hdefined : s'.gridDefined = s.gridDefined)
    (hcomposed : s'.composed = s.composed) : Emits kit [] s [] s' := by
  refine of_composes_nil hcomposed
    ⟨fun selector _ => Gets.of_bucket_eq [] ?_, .of_eq hdefined⟩
  rw [Expansion.bucket, hrules, Expansion.bucket]

theorem trans (h : Emits kit vs s ds s₁) (h' : Emits kit vs' s₁ ds' s') :
    Emits kit (vs ++ vs') s (ds ++ ds') s' := by
  refine ⟨fun id => ?_, ?_⟩
  · rw [h'.seen, h.seen, or_assoc]
    simp only [List.mem_append, or_and_right, exists_or]
  · rw [firsts_append h.seen, List.flatMap_append]
    exact h.composes.trans h'.composes

/-- What happens after steps that compose nothing. -/
theorem after (h' : Emits kit vs s₁ ds s') (h : Emits kit [] s [] s₁) : Emits kit vs s ds s' :=
  h.trans h'

/-- A visit to a block that is not special, or was composed before. -/
theorem of_not_first {v : Visit} (hnot : ¬ (v.isSpecial = true ∧ v.id ∉ s.composed))
    (hcomposed : s'.composed = s.composed) (h : Composes [] s ds s') : Emits kit [v] s ds s' := by
  refine ⟨fun id => ?_, ?_⟩
  · rw [hcomposed]
    refine ⟨.inl, ?_⟩
    rintro (hold | ⟨w, hw, hspecial, rfl⟩)
    · exact hold
    · rw [List.mem_singleton] at hw
      subst hw
      exact by_contra fun hnew => hnot ⟨hspecial, hnew⟩
  · rw [firsts, if_neg hnot, firsts]
    exact h

/-- The first visit to a special block. -/
theorem of_first {v : Visit} (hspecial : v.isSpecial = true) (hnew : v.id ∉ s.composed)
    (hcomposed : s'.composed = v.id :: s.composed) (h : Composes (v.runs kit) s ds s') :
    Emits kit [v] s ds s' := by
  refine ⟨fun id => ?_, ?_⟩
  · rw [hcomposed, List.mem_cons]
    constructor
    · rintro (rfl | hold)
      · exact .inr ⟨v, List.mem_singleton_self v, hspecial, rfl⟩
      · exact .inl hold
    · rintro (hold | ⟨w, hw, -, rfl⟩)
      · exact .inr hold
      · rw [List.mem_singleton] at hw
        subst hw
        exact .inl rfl
  · rw [firsts, if_pos ⟨hspecial, hnew⟩, firsts, List.flatMap_cons, List.flatMap_nil,
      List.append_nil]
    exact h

end Emits

/-- The token is no pseudo block whose rules include something. -/
def Token.BlockIncludesNothing : Token → Prop
  | .pseudo _ _ styles => ∀ r ∈ styles, r.property ≠ "@use"
  | .rule _ | .condition _ _ _ | .keyframes _ _ => True

section Walk

variable {kit : Toolkit} {cell : Cell} {initial : Bool}

open Expanding

/-- The walk of a pseudo block. -/
theorem emits_pseudo {id : Nat} {selector : String} {styles : List Rule} {s s' : Expansion}
    (huse : ∀ r ∈ styles, r.property ≠ "@use")
    (h : (expandToken kit cell initial (.pseudo id selector styles)).perform s = (.ok (), s')) :
    Emits kit [⟨cell, id, selector, styles, s⟩] s
      (directives (tokenEvents kit cell initial (.pseudo id selector styles) s)) s' := by
  rw [perform_expandToken_pseudo] at h
  rw [tokenEvents]
  split at h
  · next hold =>
    rw [Prod.mk.injEq] at h
    obtain ⟨-, rfl⟩ := h
    simp only [if_pos hold]
    exact Emits.of_not_first (fun hfirst => hfirst.2 hold) rfl (Composes.refl s)
  · next hnew =>
    simp only [if_neg hnew]
    cases hspecial : Selector.isSpecial (Selector.normalize selector) with
    | true =>
      -- The block counts as composed before its rules are.
      rw [hspecial, if_pos rfl, beginSpecial, perform_modify_bind] at h
      obtain ⟨hruns, hcomposed⟩ := composes_parts huse h
      exact Emits.of_first hspecial hnew hcomposed ⟨hruns.gets, hruns.defined⟩
    | false =>
      rw [hspecial, if_neg Bool.false_ne_true, pure_bind] at h
      obtain ⟨hruns, hcomposed⟩ := composes_parts huse h
      refine Emits.of_not_first (fun hfirst => ?_) hcomposed hruns
      rw [Visit.isSpecial, hspecial] at hfirst
      exact absurd hfirst.1 Bool.false_ne_true

/-- Once a grid is known an initial walk composes nothing. -/
theorem emits_of_known {token : Token} {rest : List Token} {s s' : Expansion}
    (hknown : initial = true ∧ s.grid.isSome)
    (h : (expandTokens kit cell initial (token :: rest)).perform s = (.ok (), s')) :
    Emits kit [] s [] s' := by
  rw [perform_expandTokens_known kit cell hknown] at h
  split at h
  · rw [Prod.mk.injEq] at h
    obtain ⟨-, rfl⟩ := h
    exact Emits.refl kit s
  · obtain ⟨c, found, rfl, -⟩ := exists_adopt_of_seekHostGrid h
    cases found <;> exact Emits.of_rules_eq rfl rfl rfl

mutual

/-- A walk over tokens composes the special blocks that it comes to. -/
theorem emits_expandTokens : ∀ {initial : Bool} {tokens : List Token} ⦃s s' : Expansion⦄,
    (∀ t ∈ Token.within tokens, t.BlockIncludesNothing) →
    (expandTokens kit cell initial tokens).perform s = (.ok (), s') →
    Emits kit (visits kit cell initial tokens s) s
      (directives (events kit cell initial tokens s)) s'
  | initial, [] => by
    intro s s' _ h
    rw [expandTokens, perform_pure_ok] at h
    obtain ⟨-, rfl⟩ := h
    rw [events]
    exact Emits.refl kit s
  | initial, token :: rest => by
    intro s s' ha h
    rw [Token.forall_within_cons] at ha
    rw [visits, events]
    split
    · next hknown => exact emits_of_known hknown h
    · next hknown =>
      rw [perform_expandTokens_cons kit cell hknown, perform_bind_ok] at h
      obtain ⟨_, s₁, htoken, hrest⟩ := h
      rw [htoken, directives_append]
      exact (emits_expandToken ha.1 ha.2.1 htoken).trans (emits_expandTokens ha.2.2 hrest)

/-- The walk of a token composes the special blocks that it comes to. -/
theorem emits_expandToken : ∀ {initial : Bool} {token : Token} ⦃s s' : Expansion⦄,
    token.BlockIncludesNothing → (∀ t ∈ token.inside, t.BlockIncludesNothing) →
    (expandToken kit cell initial token).perform s = (.ok (), s') →
    Emits kit (tokenVisits kit cell initial token s) s
      (directives (tokenEvents kit cell initial token s)) s'
  | initial, .rule declaration => by
    intro s s' _ hin h
    rw [expandToken, perform_bind_ok] at h
    obtain ⟨text, s₁, hrule, hpush⟩ := h
    rw [perform_modify_ok] at hpush
    subst hpush
    rw [tokenVisits, tokenEvents_rule]
    exact emits_composeRule hin hrule
  | initial, .pseudo id selector styles => by
    intro s s' ha _ h
    exact emits_pseudo ha h
  | initial, .condition name arguments styles => by
    intro s s' _ hin h
    rw [expandToken, perform_bind_ok] at h
    obtain ⟨b, s₁, hholds, hstyles⟩ := h
    rw [tokenVisits, tokenEvents, hholds]
    -- A condition changes the context only, from which no block is composed.
    have hcontext : Emits kit [] s [] s₁ := by
      obtain ⟨c, -, rfl⟩ := perform_act_ok.1 hholds
      exact Emits.of_rules_eq rfl rfl rfl
    cases b with
    | false =>
      rw [if_neg Bool.false_ne_true, perform_pure_ok] at hstyles
      obtain ⟨-, rfl⟩ := hstyles
      exact hcontext
    | true =>
      rw [if_pos rfl] at hstyles
      have hwalk := emits_expandTokens hin hstyles
      exact hwalk.after hcontext
  | initial, .keyframes name steps => by
    intro s s' _ _ h
    rw [expandToken, perform_modify_ok] at h
    subst h
    exact Emits.of_rules_eq rfl rfl rfl

/-- A rule of a cell composes the special blocks that it includes. -/
theorem emits_composeRule : ∀ {declaration : RuleOf Token} {text : String} ⦃s s' : Expansion⦄,
    (∀ t ∈ Token.insideRule declaration, t.BlockIncludesNothing) →
    (composeRule kit cell (some (Selector.ofCell cell "")) declaration).perform s =
      (.ok text, s') →
    Emits kit (ruleVisits kit cell declaration s) s
      (directives (ruleEvents kit cell (Selector.ofCell cell "") declaration s))
      (s'.push (Selector.ofCell cell "") text)
  | ⟨property, value, styles⟩, text => by
    intro s s' hin h
    rw [ruleVisits]
    split
    · next huse =>
      rw [composeRule_inclusion kit cell _ huse, perform_bind_ok] at h
      obtain ⟨texts, s₁, hact, hrest⟩ := h
      rw [perform_get_bind, perform_bind_ok] at hrest
      obtain ⟨_, s₂, hstyles, hdone⟩ := hrest
      rw [perform_pure_ok] at hdone
      obtain ⟨rfl, rfl⟩ := hdone
      rw [ruleEvents, hact]
      simp only [if_pos huse]
      -- Composing the value moves the context only, and the text of the rule is empty.
      have hcontext : Emits kit [] s [] s₁ := by
        obtain ⟨c, -, rfl⟩ := perform_act_ok.1 hact
        exact Emits.of_rules_eq rfl rfl rfl
      have hwalk := emits_expandTokens hin hstyles
      exact hwalk.after hcontext
    · next huse =>
      have hfor := composesFor_composeRule huse h
      exact Emits.of_composes_nil hfor.composed
        (hfor.composes_nil (Selector.isSpecial_ofCell cell ""))

end

/-- The visits of some cells compose the special blocks that they come to. -/
theorem emits_cells {tokens : List Token}
    (huse : ∀ t ∈ Token.within tokens, t.BlockIncludesNothing) :
    ∀ {cells : List Cell} ⦃s s' : Expansion⦄,
      (cells.forM (expandCell kit false tokens)).perform s = (.ok PUnit.unit, s') →
      Emits kit (cellVisits kit tokens cells s) s
        (directives (stages (cellEvents kit false tokens) (expandCell kit false tokens) cells s))
        s' := by
  intro cells
  induction cells with
  | nil =>
    intro s s' h
    rw [perform_forM_nil_ok] at h
    subst h
    exact Emits.refl kit s
  | cons cell cells ih =>
    intro s s' h
    rw [perform_forM_cons, perform_bind_ok] at h
    obtain ⟨_, s₁, hcell, hrest⟩ := h
    have henter : Emits kit [] s [] (s.enter false cell) := Emits.of_rules_eq rfl rfl rfl
    rw [cellVisits, stages, hcell, directives_append]
    rw [perform_expandCell] at hcell
    have hwalk := emits_expandTokens huse hcell
    exact (hwalk.after henter).trans (ih hrest)

end Walk

/-! ### Whole generations -/

/-- What belongs to special selectors is not forgotten. -/
theorem Expansion.bucket_restart (s : Expansion) (seed : UInt64) {selector : String}
    (h : Selector.isSpecial selector = true) :
    (s.restart seed).bucket selector = s.bucket selector := by
  change (s.rules.dropCells.get? selector).getD [] = (s.rules.get? selector).getD []
  rw [RuleStore.get?_dropCells, Selector.isCell_eq_false_of_isSpecial h]
  rfl

/-- The second pass begins with all that the first composed for special selectors. -/
theorem emits_restart (kit : Toolkit) (s : Expansion) (seed : UInt64) :
    Emits kit [] s [] (s.restart seed) :=
  Emits.of_composes_nil rfl
    ⟨fun _ hspecial => Gets.of_bucket_eq [] (s.bucket_restart seed hspecial), .of_eq rfl⟩

/-- A walk keeps the store in order. -/
theorem kept_wellFormed (cell : Cell) (initial : Bool) :
    Kept cell initial (fun _ => True) fun s => s.discovering = initial ∧ s.rules.WellFormed := by
  refine Kept.of_apply (fun _ hs => hs) fun {s c} hs _ => ?_
  cases c with
  | declare selector text => exact hs.push selector text
  | note kind => cases kind <;> exact hs
  | cellGrid size sizing =>
    rw [Expansion.apply, Expansion.setCellGrid]
    split
    · exact hs
    · exact hs.push Selector.host sizing
  | _ => exact hs

/-- The declarations of a selector are some runs in order, each in one piece. The host's selector
may have the sizing of the first grid directive besides, if that is one of a cell, which stands in
no run. -/
def RunsInOrder (selector : String) (runs : List (List String)) (ds : List (String × String))
    (declarations : List String) : Prop :=
  ∃ early late sizing, runs = early ++ late ∧
    declarations = early.flatten ++ sizing ++ late.flatten ∧
    (sizing = [] ∨ selector = Selector.host ∧ IsMovedSizing ds sizing)

section Generation

variable {kit : Toolkit} {seed : UInt64} {tokens : List Token} {default : GridSize}

open Expanding

/-- Both passes leave a store in order. -/
theorem wellFormed_secondPass : (secondPass kit seed tokens default).rules.WellFormed :=
  secondPass_of_kept (fun _ _ => trivial) kept_wellFormed (fun _ _ hs => hs)
    (fun hs => hs.dropCells) RuleStore.wellFormed_empty

/-- The declarations of a selector in the end are those of its bucket. -/
theorem lookup_eq_bucket (selector : String) :
    ((secondPass kit seed tokens default).rules.toList.lookup selector).getD [] =
      (secondPass kit seed tokens default).bucket selector := by
  rw [wellFormed_secondPass.lookup_toList]
  rfl

/-- A generation that succeeds renders what its passes left, which are the runs of the first
visits. -/
theorem emits_generate {compiled : Compiled}
    (huse : ∀ t ∈ Token.within tokens, t.BlockIncludesNothing)
    (h : generate kit seed tokens default = .ok compiled) :
    compiled.styles = { Stylesheet.ofRules (secondPass kit seed tokens default).rules.toList with
      keyframes := compiled.styles.keyframes } ∧
    (secondPass kit seed tokens default).rules.WellFormed ∧
    Emits kit (itinerary kit seed tokens default) (.ofSeed seed)
      (directives (runEvents kit seed tokens default)) (secondPass kit seed tokens default) := by
  obtain ⟨hfirst, hsecond, hgrid, hstyles⟩ := generate_passes h
  refine ⟨hstyles, wellFormed_secondPass, ?_⟩
  have hdiscovery : Emits kit [] (.ofSeed seed) []
      ((Expansion.ofSeed seed).enter true Cell.discovery) := Emits.of_rules_eq rfl rfl rfl
  have hinitial := (emits_expandTokens huse hfirst).after hdiscovery
  have hcells := (emits_cells huse hsecond).after
    (emits_restart kit (firstPass kit seed tokens) seed)
  rw [itinerary, runEvents, visitedCells, ← hgrid, directives_append]
  exact hinitial.trans hcells

/-- The special selectors of a stylesheet have the runs of the first visits in their order, and the
host's selector has the sizing of the first composed grid directive besides, if that is one of a
cell. Every visited block whose selector lists special parts has one first visit, in whichever pass
and cell that is, and its runs are for those parts. No pseudo block includes anything, and the
blocks have different identities, as numbering gives them (`Token.nodup_ids_number`). -/
theorem special_blocks_once {compiled : Compiled}
    (huse : ∀ t ∈ Token.within tokens, t.BlockIncludesNothing) (hids : (Token.ids tokens).Nodup)
    (h : generate kit seed tokens default = .ok compiled) :
    compiled.styles = { Stylesheet.ofRules (secondPass kit seed tokens default).rules.toList with
      keyframes := compiled.styles.keyframes } ∧
    ((secondPass kit seed tokens default).rules.toList.map Prod.fst).Nodup ∧
    (∀ selector, Selector.isSpecial selector = true →
      RunsInOrder selector
        (runsInto selector ((firsts [] (itinerary kit seed tokens default)).flatMap
          (Visit.runs kit)))
        (directives (runEvents kit seed tokens default))
        (((secondPass kit seed tokens default).rules.toList.lookup selector).getD [])) ∧
    ((firsts [] (itinerary kit seed tokens default)).map Visit.id).Nodup ∧
    ∀ v ∈ itinerary kit seed tokens default, Selector.IsSpecialList v.selector →
      ∃ before w after, itinerary kit seed tokens default = before ++ w :: after ∧
        (∀ u ∈ before, u.id ≠ v.id) ∧ w ∈ firsts [] (itinerary kit seed tokens default) ∧
        w.id = v.id ∧ w.selector = v.selector ∧ w.styles = v.styles ∧
        (w.runs kit).map Prod.fst = (selectorParts v.selector).map Selector.normalize := by
  obtain ⟨hstyles, hwell, hemits⟩ := emits_generate huse h
  refine ⟨hstyles, ?_, fun selector hspecial => ?_, (nodup_firsts [] _).1, fun v hv hlist => ?_⟩
  · rw [hwell.keys_toList]
    exact hwell.nodup
  · obtain ⟨early, late, sizing, hruns, hbucket, hsizing⟩ :=
      hemits.composes.gets selector hspecial
    refine ⟨early, late, sizing, hruns, ?_, hsizing.imp id And.right⟩
    rw [Expansion.bucket_ofSeed, List.nil_append] at hbucket
    rw [lookup_eq_bucket]
    exact hbucket
  · have hspecial : v.isSpecial = true := hlist.isSpecial
    -- Visits with one identity are visits to one block of the tree.
    have hsame : ∀ u ∈ itinerary kit seed tokens default, u.id = v.id →
        u.selector = v.selector ∧ u.styles = v.styles := by
      intro u hu hid
      have hmem := isIn_itinerary u hu
      rw [Visit.IsIn, hid] at hmem
      exact Token.pseudo_eq_of_nodup_ids hids hmem (isIn_itinerary v hv)
    obtain ⟨w, hw, hid⟩ := exists_mem_firsts hv hspecial List.not_mem_nil
    obtain ⟨before, after, hroute, hbefore⟩ := exists_eq_append_of_mem_firsts hw
    obtain ⟨hselector, hrules⟩ := hsame w ((firsts_sublist [] _).subset hw) hid
    refine ⟨before, w, after, hroute, fun u hu huid => ?_, hw, hid, hselector, hrules, ?_⟩
    · have humem : u ∈ itinerary kit seed tokens default := by
        rw [hroute]
        exact List.mem_append_left _ hu
      have huspecial : u.isSpecial = true := by
        rw [Visit.isSpecial, (hsame u humem huid).1]
        exact hspecial
      exact hbefore u hu huspecial (huid.trans hid.symm)
    · rw [Visit.runs, map_fst_partRuns, hselector, Selector.map_normalize_selectorParts]

end Generation

/-- A block for the host and the container, and one for the host that only the cells with odd
numbers come to. -/
def framedCells : List Token :=
  [.pseudo 0 ":host, :container" [.ofText "color" "red"],
    .condition "@odd" [] [.pseudo 1 ":doodle" [.ofText "color" "blue"]]]

/-- Three cells in a row give the host the declarations of both blocks once, and the container that
of the first block. -/
theorem special_blocks_once_framed :
    ∃ compiled, generate .odd 1 framedCells ⟨1, 3, 1⟩ = .ok compiled ∧
      ((secondPass .odd 1 framedCells ⟨1, 3, 1⟩).rules.toList.lookup Selector.host).getD [] =
        ["color: red;", "color: blue;"] ∧
      ((secondPass .odd 1 framedCells ⟨1, 3, 1⟩).rules.toList.lookup ":container").getD [] =
        ["color: red;"] := by
  have hwithin : Token.within framedCells =
      [.pseudo 0 ":host, :container" [.ofText "color" "red"], .rule (.ofText "color" "red"),
        .condition "@odd" [] [.pseudo 1 ":doodle" [.ofText "color" "blue"]],
        .pseudo 1 ":doodle" [.ofText "color" "blue"], .rule (.ofText "color" "blue")] := rfl
  have huse : ∀ t ∈ Token.within framedCells, t.BlockIncludesNothing := by
    rw [hwithin]
    simp [Token.BlockIncludesNothing, RuleOf.ofText]
  have hids : (Token.ids framedCells).Nodup := by
    have hlist : Token.ids framedCells = [0, 1] := rfl
    rw [hlist]
    decide
  obtain ⟨compiled, h⟩ := exists_generate_eq
    (show (generate .odd 1 framedCells ⟨1, 3, 1⟩).isOk = true by decide +kernel)
  obtain ⟨-, -, hruns, -, -⟩ := special_blocks_once huse hids h
  -- There is no grid directive, so the runs are all that the selectors have.
  have hnone : directives (runEvents .odd 1 framedCells ⟨1, 3, 1⟩) = [] := by decide +kernel
  have hbucket : ∀ selector, Selector.isSpecial selector = true →
      ((secondPass .odd 1 framedCells ⟨1, 3, 1⟩).rules.toList.lookup selector).getD [] =
        (runsInto selector ((firsts [] (itinerary .odd 1 framedCells ⟨1, 3, 1⟩)).flatMap
          (Visit.runs .odd))).flatten := by
    intro selector hspecial
    obtain ⟨early, late, sizing, hsplit, hlist, rfl | ⟨-, d, hd, -⟩⟩ := hruns selector hspecial
    · rw [hlist, hsplit, List.append_nil, List.flatten_append]
    · rw [hnone] at hd
      exact absurd hd (Option.some_ne_none d).symm
  refine ⟨compiled, h, ?_, ?_⟩
  · rw [hbucket Selector.host (by decide)]
    decide +kernel
  · rw [hbucket ":container" (by decide)]
    decide +kernel

end GridStyle
