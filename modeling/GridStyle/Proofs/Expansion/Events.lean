import GridStyle.Proofs.Expansion.Itinerary

/-!
# What a Walk Composes

The rules that a walk composes are listed in order by `events`: a grid directive with its value, and
any other rule with its text, each for its selector. Where the walk is only a search it composes
nothing. `runEvents` lists the events of both passes.

The events decide what a selector is given (`written`). A directive for the host leaves its sizing
in its own place. The sizing of any other directive goes to the host's selector, but only if it is
the first directive of all.
-/

namespace GridStyle

/-- A rule that was composed for a selector. -/
inductive Event where
  /-- A rule with its text. -/
  | declaration (selector text : String)
  /-- A grid directive with its value. -/
  | directive (selector value : String)

namespace Event

/-- The selector and the value of a directive. -/
def directive? : Event → Option (String × String)
  | .declaration _ _ => none
  | .directive selector value => some (selector, value)

/-- The text that an event leaves in its own place: that of a rule, or the sizing of a directive
for the host. -/
def text : Event → String
  | .declaration _ text => text
  | .directive selector value =>
    if Selector.isHost selector then (Directive.readGrid true value).2 else ""

/-- The selector of the rule. -/
def selector : Event → String
  | .declaration selector _ => selector
  | .directive selector _ => selector

end Event

/-- The grid directives among events. -/
def directives (es : List Event) : List (String × String) := es.filterMap Event.directive?

/-- A text that is declared for one selector, as seen by another. -/
def placed (selector target text : String) : List String :=
  if text ≠ "" ∧ target = selector then [text] else []

/-- The texts that events leave in their own places for a selector. -/
def inPlace (selector : String) (es : List Event) : List String :=
  es.flatMap fun e => placed selector e.selector e.text

/-- The sizing that a directive moves to the host's selector, if no directive was composed
before. -/
def moved (selector : String) (defined : Bool) : Event → List String
  | .declaration _ _ => []
  | .directive target value =>
    if defined ∨ Selector.isHost target then []
    else placed selector Selector.host (Directive.readGrid true value).2

/-- All that events give a selector. -/
def written (selector : String) : Bool → List Event → List String
  | _, [] => []
  | defined, e :: rest =>
    placed selector e.selector e.text ++ moved selector defined e ++
      written selector (defined || e.directive?.isSome) rest

/-! ### The events of walks -/

/-- The event of a rule that includes nothing, from the texts of its value. -/
def ruleEvent (kit : Toolkit) (cell : Cell) (selector property : String) (texts : List String) :
    Event :=
  let kind := PropertyKind.ofName property
  if property = "@grid" then .directive selector (propertyValue kind cell texts)
  else .declaration selector
    (propertyText kit kind (some selector) property (propertyValue kind cell texts))

/-- Compose a rule and declare its text. -/
def declareRule (kit : Toolkit) (cell : Cell) (selector : String) (declaration : Rule) :
    Expanding Unit := do
  let text ← composeRule kit cell (some selector) declaration
  modify fun s => s.push selector text

/-- The events of steps that are taken for the elements of a list. -/
def stages {α : Type} (happens : α → Expansion → List Event) (step : α → Expanding Unit) :
    List α → Expansion → List Event
  | [], _ => []
  | a :: as, s => happens a s ++ stages happens step as ((step a).perform s).2

mutual

/-- The events of a walk over tokens, from a state on. -/
def events (kit : Toolkit) (cell : Cell) (initial : Bool) : List Token → Expansion → List Event
  | [], _ => []
  | token :: rest, s =>
    -- Once a grid is known the tokens that are left are only searched.
    if initial = true ∧ s.grid.isSome then []
    else tokenEvents kit cell initial token s ++
      events kit cell initial rest ((expandToken kit cell initial token).perform s).2

/-- The events of the walk of one token. -/
def tokenEvents (kit : Toolkit) (cell : Cell) (initial : Bool) : Token → Expansion → List Event
  | .rule declaration, s => ruleEvents kit cell (Selector.ofCell cell "") declaration s
  | .pseudo id selector styles, s =>
    let selector := Selector.normalize selector
    let special := Selector.isSpecial selector
    -- Only special blocks are ever in this list.
    if id ∈ s.composed then []
    else stages (fun part => rulesEvents kit cell (partSelector cell special part) styles)
      (fun part => expandRules kit cell (partSelector cell special part) styles)
      (selectorParts selector) (if special then s.apply (.begin id) else s)
  | .condition name arguments styles, s =>
    match (Expanding.act (holds kit cell name arguments)).perform s with
    | (.ok true, s') => events kit cell initial styles s'
    | _ => []
  | .keyframes _ _, _ => []

/-- The events of rules that are composed for a selector one after the other. -/
def rulesEvents (kit : Toolkit) (cell : Cell) (selector : String) :
    List (RuleOf Token) → Expansion → List Event
  | [], _ => []
  | declaration :: rest, s =>
    ruleEvents kit cell selector declaration s ++
      rulesEvents kit cell selector rest ((declareRule kit cell selector declaration).perform s).2

/-- The events of one rule. -/
def ruleEvents (kit : Toolkit) (cell : Cell) (selector : String) :
    RuleOf Token → Expansion → List Event
  | ⟨property, value, styles⟩, s =>
    match (Expanding.act (groupTexts kit.functions cell value)).perform s with
    | (.ok texts, s') =>
      if property = "@use" then events kit cell s'.discovering styles s'
      else [ruleEvent kit cell selector property texts]
    | _ => []

end

/-- The events of the visit of a cell. -/
def cellEvents (kit : Toolkit) (initial : Bool) (tokens : List Token) (cell : Cell)
    (s : Expansion) : List Event :=
  events kit cell initial tokens (s.enter initial cell)

/-- The events of both passes. -/
def runEvents (kit : Toolkit) (seed : UInt64) (tokens : List Token) (default : GridSize) :
    List Event :=
  cellEvents kit true tokens Cell.discovery (.ofSeed seed) ++
    stages (cellEvents kit false tokens) (expandCell kit false tokens)
      (visitedCells kit seed tokens default) ((firstPass kit seed tokens).restart seed)

/-- The events of the second pass. -/
def secondEvents (kit : Toolkit) (seed : UInt64) (tokens : List Token) (default : GridSize) :
    List Event :=
  stages (cellEvents kit false tokens) (expandCell kit false tokens)
    (visitedCells kit seed tokens default) ((firstPass kit seed tokens).restart seed)

theorem runEvents_eq_append (kit : Toolkit) (seed : UInt64) (tokens : List Token)
    (default : GridSize) :
    runEvents kit seed tokens default =
      cellEvents kit true tokens Cell.discovery (.ofSeed seed) ++
        secondEvents kit seed tokens default := rfl

/-! ### What is written -/

theorem directives_append (es es' : List Event) :
    directives (es ++ es') = directives es ++ directives es' := List.filterMap_append

theorem inPlace_cons (selector : String) (e : Event) (es : List Event) :
    inPlace selector (e :: es) = placed selector e.selector e.text ++ inPlace selector es :=
  List.flatMap_cons

theorem inPlace_append (selector : String) (es es' : List Event) :
    inPlace selector (es ++ es') = inPlace selector es ++ inPlace selector es' :=
  List.flatMap_append

/-- What later events write depends on whether there was a directive before. -/
theorem written_append (selector : String) (defined : Bool) (es es' : List Event) :
    written selector defined (es ++ es') =
      written selector defined es ++
        written selector (defined || !(directives es).isEmpty) es' := by
  induction es generalizing defined with
  | nil => simp [written, directives]
  | cons e es ih =>
    -- Whether there was a directive before the second list is the same seen from after `e`.
    have hlater : (defined || !(directives (e :: es)).isEmpty) =
        ((defined || e.directive?.isSome) || !(directives es).isEmpty) := by
      cases e with
      | declaration target text => rw [Event.directive?, Option.isSome_none, Bool.or_false]; rfl
      | directive target value => simp [directives, Event.directive?]
    rw [List.cons_append, written, written, ih, hlater]
    simp only [List.append_assoc]

/-- After the first directive everything is written in its own place. -/
theorem written_true (selector : String) (es : List Event) :
    written selector true es = inPlace selector es := by
  induction es with
  | nil => rfl
  | cons e es ih =>
    have hmoved : moved selector true e = [] := by cases e <;> simp [moved]
    rw [written, hmoved, List.append_nil, Bool.true_or, ih]
    rfl

/-- Without a directive everything is written in its own place. -/
theorem written_of_directives_eq_nil {selector : String} {defined : Bool} {es : List Event}
    (h : directives es = []) : written selector defined es = inPlace selector es := by
  induction es generalizing defined with
  | nil => rfl
  | cons e es ih =>
    cases e with
    | declaration target text =>
      rw [written, moved, List.append_nil, ih h]
      rfl
    | directive target value => exact absurd h (List.cons_ne_nil _ _)

/-- Any selector but the host's has what is written in its own place. -/
theorem written_of_ne_host {selector : String} (h : selector ≠ Selector.host) (defined : Bool)
    (es : List Event) : written selector defined es = inPlace selector es := by
  induction es generalizing defined with
  | nil => rfl
  | cons e es ih =>
    have hmoved : moved selector defined e = [] := by
      cases e with
      | declaration target text => rfl
      | directive target value =>
        have hplaced : placed selector Selector.host (Directive.readGrid true value).2 = [] :=
          if_neg fun hhost => h hhost.2.symm
        rw [moved, hplaced, ite_self]
    rw [written, hmoved, List.append_nil, ih]
    rfl

/-- Besides what is written in its own place there is the sizing that the first directive moves. -/
theorem written_of_first {selector target value : String} {before after : List Event}
    (h : directives before = []) :
    written selector false (before ++ .directive target value :: after) =
      inPlace selector before ++ moved selector false (.directive target value) ++
        inPlace selector (.directive target value :: after) := by
  have hfirst : written selector false (.directive target value :: after) =
      moved selector false (.directive target value) ++
        inPlace selector (.directive target value :: after) := by
    rw [written, Event.directive?, Option.isSome_some, Bool.or_true, written_true, inPlace_cons,
      ← List.append_assoc]
    congr 1
    -- A directive either moves its sizing or leaves it in its place.
    cases hhost : Selector.isHost target with
    | true => simp [moved, hhost]
    | false => simp [Event.text, placed, hhost]
  rw [written_append, h, written_of_directives_eq_nil h, List.append_assoc]
  exact congrArg (inPlace selector before ++ ·) hfirst

/-- Among events there is no directive, or there is a first one. -/
theorem directives_cases (es : List Event) :
    directives es = [] ∨ ∃ before target value after,
      es = before ++ .directive target value :: after ∧ directives before = [] := by
  induction es with
  | nil => exact .inl rfl
  | cons e es ih =>
    cases e with
    | directive target value => exact .inr ⟨[], target, value, es, rfl, rfl⟩
    | declaration target text =>
      obtain hnone | ⟨before, selector, value, after, rfl, hbefore⟩ := ih
      · exact .inl hnone
      · exact .inr ⟨.declaration target text :: before, selector, value, after, rfl, hbefore⟩

/-- The events begin with a grid directive that is none of the host, and these are its grid and its
sizing. -/
def LedByCells (size : GridSize) (sizing : String) (es : List Event) : Prop :=
  ∃ target value rest, es = .directive target value :: rest ∧
    Selector.isHost target = false ∧ Directive.readGrid true value = (size, sizing)

theorem LedByCells.grid_eq {size : GridSize} {sizing : String} {es : List Event}
    (h : LedByCells size sizing es) {d : String × String} (hd : (directives es).head? = some d) :
    (Directive.readGrid true d.2).1 = size := by
  obtain ⟨target, value, rest, rfl, -, hread⟩ := h
  have hfirst : (target, value) = d := Option.some.inj hd
  rw [← hfirst, hread]

/-- Besides what stands in its own place one sizing is written, for the host's selector. It is that
of the first directive, and empty if this is one of the host. -/
theorem exists_written_eq (es : List Event) :
    ∃ before after sizing, es = before ++ after ∧ directives before = [] ∧
      (∀ selector, written selector false es =
        inPlace selector before ++ placed selector Selector.host sizing ++
          inPlace selector after) ∧
      (sizing = "" ∧ (∀ d, (directives es).head? = some d → Selector.isHost d.1 = true) ∨
        ∃ size, LedByCells size sizing after) := by
  have hplaced : ∀ selector, placed selector Selector.host "" = [] :=
    fun selector => if_neg fun h => h.1 rfl
  obtain hnone | ⟨before, target, value, after, rfl, hbefore⟩ := directives_cases es
  · refine ⟨es, [], "", (List.append_nil es).symm, hnone, fun selector => ?_, .inl ⟨rfl, ?_⟩⟩
    · rw [written_of_directives_eq_nil hnone, hplaced, List.append_nil]
      exact (List.append_nil _).symm
    · rw [hnone]
      exact fun d hd => absurd hd (Option.some_ne_none d).symm
  · have hhead : ∀ d, (directives (before ++ .directive target value :: after)).head? = some d →
        (target, value) = d := by
      rw [directives_append, hbefore]
      exact fun d hd => Option.some.inj hd
    cases hhost : Selector.isHost target with
    | true =>
      -- A directive of the host moves nothing.
      refine ⟨before, .directive target value :: after, "", rfl, hbefore, fun selector => ?_,
        .inl ⟨rfl, fun d hd => ?_⟩⟩
      · rw [written_of_first hbefore, moved, if_pos (.inr hhost), hplaced]
      · rw [← hhead d hd]
        exact hhost
    | false =>
      obtain ⟨size, sizing, hread⟩ :
          ∃ size sizing, Directive.readGrid true value = (size, sizing) := ⟨_, _, rfl⟩
      have hmoves : ¬ (false = true ∨ Selector.isHost target = true) := by
        rw [hhost]
        decide
      refine ⟨before, .directive target value :: after, sizing, rfl, hbefore, fun selector => ?_,
        .inr ⟨size, target, value, after, rfl, hhost, hread⟩⟩
      rw [written_of_first hbefore, moved, if_neg hmoves, hread]

end GridStyle
