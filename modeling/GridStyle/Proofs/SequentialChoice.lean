import GridStyle.Proofs.Registry
import GridStyle.Proofs.SecondPass
import GridStyle.Proofs.ValueLists

/-!
# Sequential Choice

A call of `pick-n` moves the counter of its position in the source, and nothing else does
(`FunctionRegistry.all_spares`). So between two visits of a rule whose value is such a call the
counter stays where it is, as long as no other sequential choice has the same position
(`Avoids.counter_expandTokens`).

The second pass begins with all counters at zero. Hence the rule takes the items of its list in the
order of the cells, over and over again (`choices_in_cell_order`).
-/

namespace GridStyle

open Expanding

/-! ### Counters that are left alone -/

/-- The action leaves a counter where it is. -/
def Action.Spares {α : Type} (key : String) (action : Action α) : Prop :=
  ∀ c, (action.perform c).2.counter key = c.counter key

namespace Action.Spares

variable {key : String} {α β : Type}

theorem pure (a : α) : (pure a : Action α).Spares key := fun _ => rfl

theorem throw (e : Failure) : (throw e : Action α).Spares key := fun _ => rfl

theorem bind {action : Action α} {next : α → Action β} (h : action.Spares key)
    (hnext : ∀ a, (next a).Spares key) : (action >>= next).Spares key := by
  intro c
  have hc := h c
  rw [perform_bind]
  rcases haction : action.perform c with ⟨outcome, c'⟩
  rw [haction] at hc
  cases outcome with
  | ok a => exact (hnext a c').trans hc
  | error e => exact hc

theorem compositional (key : String) : Compositional fun _ action => Action.Spares key action :=
  ⟨pure, throw, bind⟩

/-- Draws have nothing to do with the counters. -/
theorem draw (sample : Random → α × Random) : (draw sample).Spares key := by
  intro c
  change (Context.draw sample c).2.counter key = c.counter key
  rw [Context.draw]
  rcases sample c.random with ⟨a, random⟩
  rfl

theorem drawIndex (length : Nat) : (drawIndex length).Spares key := by
  intro c
  change (Context.drawIndex length c).2.counter key = c.counter key
  rw [Context.drawIndex]
  split
  · rfl
  · exact draw (Random.index length) c

/-- Another counter moves. -/
theorem nextCounter {other : String} (h : other ≠ key) : (nextCounter other).Spares key := by
  intro c
  change (c.advance other).counter key = c.counter key
  rw [Context.counter_advance, if_neg h, Nat.add_zero]

end Action.Spares

/-- Different positions have different counters. -/
theorem Builtin.cursor_injective : Function.Injective cursor := by
  intro position other h
  rw [cursor, cursor, ← String.toList_inj, String.toList_append, String.toList_append,
    List.append_cancel_left_eq, String.toList_inj] at h
  exact Nat.repr_injective h

/-- The names of sequential choice. -/
def Builtin.sequential : List String := ["pick-n", "pn"]

/-- The function of both names is the same. -/
theorem FunctionRegistry.find?_sequential {name : String} (h : name ∈ Builtin.sequential) :
    builtin.find? name = some (.eager Builtin.pickNext) := by
  simp only [Builtin.sequential, List.mem_cons, List.not_mem_nil, or_false] at h
  rcases h with rfl | rfl <;> rfl

/-- All functions leave the counter of a position alone, except for sequential choice at this
position. -/
theorem FunctionRegistry.all_spares (position : Nat) : builtin.All fun name f =>
    ∀ other, (name ∈ Builtin.sequential → other ≠ position) →
      f.HasAt (fun _ action => action.Spares (Builtin.cursor position)) other := by
  intro name f hfind other hother
  by_cases hnext : name ∈ Builtin.sequential
  · obtain rfl : f = .eager Builtin.pickNext :=
      Option.some.inj (hfind.symm.trans (find?_sequential hnext))
    -- The call is at another position, so it moves another counter.
    rintro call args rfl
    unfold Builtin.pickNext
    split
    · exact .pure none
    · exact .bind (.nextCounter fun h => hother hnext (Builtin.cursor_injective h)) fun turn =>
        .pure _
  by_cases hpick : name ∈ ["pick", "p"]
  · obtain rfl : f = .eager Builtin.pick := by
      simp only [List.mem_cons, List.not_mem_nil, or_false] at hpick
      rcases hpick with rfl | rfl <;> exact (Option.some.inj hfind).symm
    exact fun call args _ => .bind (.drawIndex _) fun index => .pure _
  by_cases hrandom : name ∈ ["rand", "r"]
  · obtain rfl : f = .eager Builtin.random := by
      simp only [List.mem_cons, List.not_mem_nil, or_false] at hrandom
      rcases hrandom with rfl | rfl <;> exact (Option.some.inj hfind).symm
    intro call args _
    unfold Builtin.random
    split
    · exact .pure none
    · exact .bind (.draw _) fun value => .pure _
  · -- All others leave the whole context alone.
    refine Callable.Has.at ((Action.Spares.compositional _).all_builtin name f hfind ?_) other
    simp only [Builtin.contextual, Builtin.sequential, List.mem_cons, List.not_mem_nil] at *
    tauto

/-- Predicates leave the counters alone. -/
theorem Predicates.spares (key : String) {name : String} {predicate : Predicate}
    (hfind : builtin.find? name = some predicate) (call : Call) (args : List String) :
    (predicate call args).Spares key := by
  by_cases hname : name = "random"
  · obtain rfl : predicate = byChance := by
      rw [hname] at hfind
      exact (Option.some.inj hfind).symm
    -- Chance draws from the generator, which is no counter.
    exact (Action.Spares.compositional key).chance (.draw _) call args
  · exact (Action.Spares.compositional key).all_predicates hname hfind call args

/-! ### Trees without the choice -/

/-- The sites of the calls in a token itself, apart from the tokens in it. -/
def Token.sites : Token → List CallSite
  | .rule declaration => declaration.value.flatMap ValueGroup.sites
  | .condition _ arguments _ => Argument.sites arguments
  | .pseudo _ _ _ | .keyframes _ _ => []

/-- No sequential choice is at a position of the source. -/
def Avoids (position : Nat) (tokens : List Token) : Prop :=
  ∀ t ∈ Token.within tokens, ∀ site ∈ t.sites, site.name ∈ Builtin.sequential →
    site.position ≠ position

instance (position : Nat) (tokens : List Token) : Decidable (Avoids position tokens) :=
  inferInstanceAs (Decidable (∀ t ∈ Token.within tokens, ∀ site ∈ t.sites,
    site.name ∈ Builtin.sequential → site.position ≠ position))

/-- States in the midst of a walk that leaves a counter where it is. -/
def CounterAt (initial : Bool) (key : String) (k : Nat) : StateRelation :=
  fun s t => s = t ∧ s.discovering = initial ∧ s.context.counter key = k

/-- The functions and predicates of generation, with some way of writing declarations. -/
def Toolkit.prefixed (prefixing : Prefixing) : Toolkit := { Toolkit.builtin with prefixing }

section Walks

variable {position : Nat} {tokens : List Token} {prefixing : Prefixing} {cell : Cell}
  {initial : Bool} {s s' : Expansion}

theorem Avoids.haveAt (h : Avoids position tokens) {t : Token} (ht : t ∈ Token.within tokens)
    {sites : List CallSite} (hsites : ∀ site ∈ sites, site ∈ t.sites) :
    FunctionRegistry.builtin.HaveAt
      (fun _ action => action.Spares (Builtin.cursor position)) sites :=
  fun site hsite f hfind => FunctionRegistry.all_spares position site.name f hfind site.position
    (h t ht site (hsites site hsite))

/-- A walk over a tree without the choice is in step with itself, and keeps the counter. -/
theorem Avoids.coupling (h : Avoids position tokens) (prefixing : Prefixing) (cell : Cell)
    (initial : Bool) (k : Nat) :
    Coupling (.prefixed prefixing) cell initial (· ∈ Token.within tokens)
      (CounterAt initial (Builtin.cursor position) k) := by
  -- An action that spares the counter keeps both runs at its value.
  have hact : ∀ {α : Type} {action : Action α}, action.Spares (Builtin.cursor position) →
      ∀ {s t}, CounterAt initial (Builtin.cursor position) k s t →
        InStep (CounterAt initial (Builtin.cursor position) k) (act action) s (act action) t := by
    rintro α action hspares s t ⟨rfl, hdiscovering, hk⟩
    refine ⟨rfl, rfl, ?_⟩
    rw [perform_act]
    exact ⟨hdiscovering, (hspares s.context).trans hk⟩
  refine ⟨?_, ?_, ?_, fun hR hrule => hact ?_ hR, fun hR hcondition => hact ?_ hR, ?_⟩
  · rintro s t ⟨rfl, hdiscovering, -⟩
    exact ⟨hdiscovering, hdiscovering⟩
  · rintro - s t ⟨rfl, -⟩
    exact ⟨rfl, rfl⟩
  · rintro s t id list styles ⟨rfl, -⟩ -
    exact Iff.rfl
  · exact (Action.Spares.compositional _).groupTexts_of_sites cell fun group hgroup =>
      h.haveAt hrule fun site hsite => List.mem_flatMap.2 ⟨group, hgroup, hsite⟩
  · exact (Action.Spares.compositional _).holds_of_sites cell
      (fun _ hfind => Predicates.spares _ hfind) (h.haveAt hcondition fun _ hsite => hsite)
  · rintro s t c ⟨rfl, hdiscovering, hk⟩ -
    refine ⟨rfl, (s.discovering_apply c).trans hdiscovering, ?_⟩
    rw [s.context_apply]
    exact hk

/-- A walk over a tree without the choice leaves its counter where it is. -/
theorem Avoids.counter_expandTokens (h : Avoids position tokens) (hs : s.discovering = initial)
    (hrun : (expandTokens (.prefixed prefixing) cell initial tokens).perform s =
      (.ok (), s')) :
    s'.discovering = initial ∧ s'.context.counter (Builtin.cursor position) =
      s.context.counter (Builtin.cursor position) := by
  obtain ⟨-, -, hdiscovering, hk⟩ :=
    (h.coupling prefixing cell initial (s.context.counter (Builtin.cursor position))
      ).inStep_expandTokens tokens (fun _ ht => ht) ⟨rfl, hs, rfl⟩
  rw [hrun] at hdiscovering hk
  exact ⟨hdiscovering, hk⟩

end Walks

/-! ### The choice -/

/-- A text that is one item of a list: it is not empty, has no blanks at its ends and no comma. -/
structure Text.IsListItem (text : String) : Prop where
  /-- There is something. -/
  ne_empty : text ≠ ""
  /-- No blanks are at the ends. -/
  trimmed : trim text.toList = text.toList
  /-- There is no comma. -/
  single : ',' ∉ text.toList

instance : DecidablePred Text.IsListItem := fun text =>
  decidable_of_iff (text ≠ "" ∧ Text.trim text.toList = text.toList ∧ ',' ∉ text.toList)
    ⟨fun h => ⟨h.1, h.2.1, h.2.2⟩, fun h => ⟨h.1, h.2, h.3⟩⟩

/-- An item is a list of its own, whatever brackets it has. -/
theorem Text.IsListItem.splitGroup_eq {text : String} (h : IsListItem text) :
    splitGroup text = [text] := by
  have hnone : ∀ c ∈ text.toList, atCommas.separates c = false := by
    intro c hc
    simpa [atCommas] using fun heq : c = ',' => h.single (heq ▸ hc)
  have hne : text.toList ≠ [] := fun hnil => h.ne_empty (String.toList_eq_nil_iff.1 hnil)
  rw [splitGroup, split_of_whole (Nesting.whole_of_not_separates hnone),
    tidy_singleton hne h.trimmed, List.map_singleton, String.ofList_toList]

/-- Arguments of one text each, which is one item, have their texts as inputs. -/
theorem perform_argumentInputs_items (functions : FunctionRegistry) (cell : Cell)
    (extra : List String) {arguments : List Argument} {texts : List String}
    (htexts : ∀ text ∈ texts, Text.IsListItem text)
    (h : arguments.map (·.nodes) = texts.map fun text => [.text text]) (c : Context) :
    (argumentInputs functions cell arguments extra).perform c = (.ok texts, c) := by
  induction arguments generalizing texts with
  | nil =>
    obtain rfl := List.map_eq_nil_iff.1 h.symm
    rfl
  | cons argument arguments ih =>
    obtain ⟨cluster, nodes⟩ := argument
    cases texts with
    | nil => exact absurd h (by simp)
    | cons text texts =>
      rw [List.forall_mem_cons] at htexts
      rw [List.map_cons, List.map_cons, List.cons.injEq] at h
      obtain ⟨hnodes, hrest⟩ := h
      obtain rfl : nodes = [.text text] := hnodes
      -- An item has no comma at the top, so it is not split, and alone it is its own cluster.
      have hinputs : inputsOf cluster [text] = [text] := by
        cases cluster with
        | false => exact htexts.1.splitGroup_eq
        | true =>
          have hempty : text.isEmpty = false := by simpa using htexts.1.ne_empty
          simp [inputsOf, String.join_cons, hempty]
      have hnode : (nodeTexts functions cell [.text text] extra).perform c = (.ok [text], c) := by
        rw [nodeTexts, nodeText, nodeTexts]
        rfl
      rw [argumentInputs, Action.perform_bind, hnode]
      change (argumentInputs functions cell arguments extra >>= fun inputs =>
        pure (inputsOf cluster [text] ++ inputs)).perform c = _
      rw [Action.perform_bind, ih htexts.2 hrest, hinputs]
      rfl

/-- Of some arguments the one is chosen whose turn it is, and the counter moves on. -/
theorem Builtin.perform_pickNext (call : Call) {texts : List String} (hne : texts ≠ [])
    (c : Context) :
    (pickNext call texts).perform c =
      (.ok texts[c.counter (cursor call.position) % texts.length]?,
        c.advance (cursor call.position)) := by
  have hempty : ¬ texts.isEmpty = true := by simpa using hne
  rw [pickNext, if_neg hempty]
  rfl

/-- Something is written for every declaration. -/
theorem Prefixing.write_declare_ne_empty (prefixing : Prefixing) (property text : String) :
    prefixing.write property (Directive.declare property text) ≠ "" := by
  have hdeclared : Directive.declare property text ≠ "" := fun hempty => by
    have hlength := congrArg String.length hempty
    simp [Directive.declare] at hlength
  cases prefixing with
  | none => exact hdeclared
  | vendor =>
    rw [Prefixing.write]
    split
    · exact fun hempty => hdeclared (String.append_eq_empty_iff.1 hempty).2
    · exact hdeclared

/-- A rule whose value is one call of sequential choice from a list of items. -/
structure IsChoice (choice : Rule) (position : Nat) (texts : List String) : Prop where
  /-- The property is no directive and has no treatment of its own. -/
  plain : PropertyKind.ofName choice.property = .plain
  /-- The value is one call, at the position, with one text in every argument. -/
  value : ∃ name arguments, choice.value = [[.call name arguments position]] ∧
    Selector.stripMarker name ∈ Builtin.sequential ∧
    arguments.map (·.nodes) = texts.map fun text => [.text text]
  /-- There is something to choose. -/
  ne_nil : texts ≠ []
  /-- The texts are items. -/
  items : ∀ text ∈ texts, Text.IsListItem text

namespace IsChoice

variable {choice : Rule} {position : Nat} {texts : List String} (h : IsChoice choice position texts)

include h

/-- The counter decides what is chosen, and moves on. -/
theorem perform_groupTexts (cell : Cell) (c : Context) :
    ∃ text, texts[c.counter (Builtin.cursor position) % texts.length]? = some text ∧
      (groupTexts FunctionRegistry.builtin cell choice.value).perform c =
        (.ok [text], c.advance (Builtin.cursor position)) := by
  obtain ⟨name, arguments, hvalue, hname, harguments⟩ := h.value
  have hlt : c.counter (Builtin.cursor position) % texts.length < texts.length :=
    Nat.mod_lt _ (List.length_pos_of_ne_nil h.ne_nil)
  refine ⟨texts[c.counter (Builtin.cursor position) % texts.length],
    List.getElem?_eq_getElem hlt, ?_⟩
  have hnode :
      (nodeText FunctionRegistry.builtin cell (.call name arguments position) []).perform c =
        (.ok texts[c.counter (Builtin.cursor position) % texts.length],
          c.advance (Builtin.cursor position)) := by
    rw [nodeText, FunctionRegistry.find?_sequential hname]
    simp only
    rw [Action.perform_bind, perform_argumentInputs_items _ _ _ h.items harguments]
    simp only
    rw [Action.perform_bind, Builtin.perform_pickNext _ h.ne_nil, List.getElem?_eq_getElem hlt]
    rfl
  have hgroup : (groupText FunctionRegistry.builtin cell [.call name arguments position] []).perform
      c = (.ok texts[c.counter (Builtin.cursor position) % texts.length],
        c.advance (Builtin.cursor position)) := by
    rw [groupText, nodeTexts, nodeTexts, map_eq_pure_bind, Action.perform_bind, Action.perform_bind,
      hnode]
    simp only [pure_bind, Action.perform_pure, String.join_cons, String.join_nil,
      String.append_empty]
  -- The text is not empty, so the group is not dropped.
  have hne := (h.items _ (List.getElem_mem hlt)).ne_empty
  rw [hvalue, groupTexts, List.mapM_cons, List.mapM_nil, Action.perform_bind, Action.perform_bind,
    hgroup]
  simp [hne]

theorem property_ne_use : choice.property ≠ "@use" := fun heq => by
  have hplain := h.plain
  rw [heq] at hplain
  exact absurd hplain (by decide)

theorem property_ne_grid : choice.property ≠ "@grid" := fun heq => by
  have hplain := h.plain
  rw [heq] at hplain
  exact absurd hplain (by decide)

/-- What is declared when the counter stands somewhere. -/
theorem perform_composeRule (prefixing : Prefixing) (cell : Cell) (selector : Option String)
    (s : Expansion) :
    ∃ text, texts[s.context.counter (Builtin.cursor position) % texts.length]? = some text ∧
      ∃ s', (composeRule (.prefixed prefixing) cell selector choice).perform s =
          (.ok (prefixing.write choice.property (Directive.declare choice.property text)), s') ∧
        s'.discovering = s.discovering ∧ s'.context = s.context.advance (Builtin.cursor position) := by
  obtain ⟨text, htext, hperform⟩ := h.perform_groupTexts cell s.context
  have hwritten : ∀ value, propertyText (.prefixed prefixing) .plain selector
      choice.property value =
        prefixing.write choice.property (Directive.declare choice.property value) := by
    intro value
    -- No directive has a property that is declared as it stands.
    have happly : Directive.apply choice.property value (selector.any Selector.isSpecial) =
        none := by
      have hplain := h.plain
      unfold Directive.apply
      split <;> first | rfl | (next heq => rw [heq] at hplain; exact absurd hplain (by decide))
    rw [propertyText, happly]
    exact String.append_empty
  refine ⟨text, htext, _, (perform_composeRule_ok _ cell h.property_ne_use).2
    ⟨[text], _, hperform, ?_, rfl⟩, ?_, ?_⟩
  · have hvalue : propertyValue .plain cell [text] = text := by
      change String.intercalate ", " [text] = text
      exact String.intercalate_singleton
    rw [h.plain, hvalue, hwritten]
  · rw [gridChanges, if_neg h.property_ne_grid, Expansion.applyAll_nil]
    exact Expansion.discovering_apply _ _
  · rw [gridChanges, if_neg h.property_ne_grid, Expansion.applyAll_nil]
    exact Expansion.context_apply _ _

end IsChoice

/-! ### Visits of cells -/

section Visits

variable {prefixing : Prefixing} {before after : List Token} {choice : Rule} {position : Nat}
  {texts : List String} {cell : Cell} {s s' : Expansion}

theorem Avoids.of_append (h : Avoids position (before ++ after)) :
    Avoids position before ∧ Avoids position after := by
  rw [Avoids, Token.forall_within, List.forall_mem_append, ← Token.forall_within,
    ← Token.forall_within] at h
  exact h

/-- The visit of a cell comes to the choice once, in a state with the counter of the beginning, and
leaves the counter one higher. -/
theorem IsChoice.visit (h : IsChoice choice position texts)
    (havoids : Avoids position (before ++ after))
    (hrun : (expandCell (.prefixed prefixing) false
      ((Place.here before after).fill (.rule choice)) cell).perform s = (.ok (), s')) :
    ∃ u, (Place.here before after).arrivals (.rule choice) (.prefixed prefixing) cell
        false (s.enter false cell) = [.composes (Selector.ofCell cell "") u] ∧
      u.context.counter (Builtin.cursor position) =
        s.context.counter (Builtin.cursor position) ∧
      s'.context.counter (Builtin.cursor position) =
        s.context.counter (Builtin.cursor position) + 1 := by
  obtain ⟨hbefore, hafter⟩ := havoids.of_append
  rw [perform_expandCell, Place.fill, expandTokens_append, expandTokens_append, perform_bind_ok]
    at hrun
  obtain ⟨_, s₁, hrun, hbehind⟩ := hrun
  rw [perform_bind_ok] at hrun
  obtain ⟨_, u, hfront, hchoice⟩ := hrun
  -- The tokens in front of the rule leave the counter alone.
  obtain ⟨hdiscovering, hcounter⟩ :=
    hbefore.counter_expandTokens (show (s.enter false cell).discovering = false from rfl) hfront
  have hnot : ¬ (false = true ∧ u.grid.isSome) := fun hknown => absurd hknown.1 (by decide)
  refine ⟨u, ?_, hcounter, ?_⟩
  · rw [Place.arrivals, andThen_of_ok hfront, if_neg hnot]
  · -- The rule moves the counter, and the tokens behind it do not.
    change (expandTokens _ cell false [.rule choice]).perform u = _ at hchoice
    rw [perform_expandTokens_cons _ cell hnot, perform_bind_ok] at hchoice
    obtain ⟨_, u₁, hrule, hdone⟩ := hchoice
    rw [expandTokens, perform_pure_ok] at hdone
    obtain ⟨-, rfl⟩ := hdone
    obtain ⟨text, -, u₂, hcompose, hdiscovering₂, hcontext⟩ :=
      h.perform_composeRule prefixing cell (some (Selector.ofCell cell "")) u
    rw [expandToken, perform_bind, hcompose] at hrule
    obtain rfl := perform_modify_ok.1 hrule
    obtain ⟨-, hlast⟩ := hafter.counter_expandTokens
      (show (u₂.push _ _).discovering = false from hdiscovering₂.trans hdiscovering) hbehind
    rw [hlast]
    change u₂.context.counter _ = _
    rw [hcontext, Context.counter_advance, if_pos rfl, hcounter]
    rfl

/-- The visits of cells come to the choice once in each, with a counter that goes up by one from
cell to cell. -/
theorem IsChoice.visits (h : IsChoice choice position texts)
    (havoids : Avoids position (before ++ after)) {cells : List Cell}
    (hrun : (cells.forM (expandCell (.prefixed prefixing) false
      ((Place.here before after).fill (.rule choice)))).perform s = (.ok PUnit.unit, s')) :
    ∃ reached : List (Cell × Expansion),
      along (expandCell (.prefixed prefixing) false
          ((Place.here before after).fill (.rule choice)))
        (fun cell s => ((Place.here before after).arrivals (.rule choice)
          (.prefixed prefixing) cell false (s.enter false cell)).map
            fun a => (cell, a)) cells s =
        reached.map (fun v => (v.1, .composes (Selector.ofCell v.1 "") v.2)) ∧
      reached.map Prod.fst = cells ∧
      reached.map (fun v => v.2.context.counter (Builtin.cursor position)) =
        List.range' (s.context.counter (Builtin.cursor position)) cells.length := by
  induction cells generalizing s with
  | nil => exact ⟨[], rfl, rfl, rfl⟩
  | cons cell cells ih =>
    rw [perform_forM_cons, perform_bind_ok] at hrun
    obtain ⟨_, s₁, hcell, hrest⟩ := hrun
    obtain ⟨u, harrivals, hu, hs₁⟩ := h.visit havoids hcell
    obtain ⟨reached, hreached, hcells, hcounters⟩ := ih hrest
    refine ⟨(cell, u) :: reached, ?_, ?_, ?_⟩
    · rw [along, andThen_of_ok hcell, harrivals, hreached]
      rfl
    · rw [List.map_cons, hcells]
    · rw [List.map_cons, hcounters, hu, hs₁, List.length_cons, List.range'_succ]

/-- The second pass comes to the choice once in every cell, and the counter is always one less than
the number of the cell. -/
theorem IsChoice.secondArrivals (h : IsChoice choice position texts)
    (havoids : Avoids position (before ++ after)) {seed : UInt64} {default : GridSize}
    {compiled : Compiled} (hgenerate : generate (.prefixed prefixing) seed
      ((Place.here before after).fill (.rule choice)) default = .ok compiled) :
    ∃ reached : List (Cell × Expansion),
      (Place.here before after).secondArrivals (.rule choice) (.prefixed prefixing) seed default =
        reached.map (fun v => (v.1, .composes (Selector.ofCell v.1 "") v.2)) ∧
      reached.map Prod.fst = compiled.grid.cells ∧
      ∀ v ∈ reached, v.2.context.counter (Builtin.cursor position) + 1 = v.1.count := by
  obtain ⟨-, hsecond, hgrid, -⟩ := generate_passes hgenerate
  obtain ⟨reached, harrivals, hcells, hcounters⟩ := h.visits havoids hsecond
  refine ⟨reached, ?_, hcells, ?_⟩
  · rw [Place.secondArrivals, visitedCells, ← hgrid, harrivals]
  · -- All counters are at zero when the second pass begins, whatever the first has chosen.
    have hzero : ((firstPass (.prefixed prefixing) seed
        ((Place.here before after).fill (.rule choice))).restart seed).context.counter
          (Builtin.cursor position) = 0 := Std.HashMap.getD_empty
    rw [hzero] at hcounters
    refine List.map_inj_left.1 ?_
    calc reached.map (fun v => v.2.context.counter (Builtin.cursor position) + 1)
        = (reached.map fun v => v.2.context.counter (Builtin.cursor position)).map (1 + ·) := by
          rw [List.map_map]
          exact List.map_congr_left fun v _ => Nat.add_comm _ 1
      _ = GridSize.upTo compiled.grid.cells.length := by
          rw [hcounters, List.map_add_range', GridSize.upTo]
      _ = reached.map fun v => v.1.count := by
          rw [← GridSize.map_count_cells, ← hcells, List.map_map]
          rfl

/-- In every generation that succeeds, a rule of a plain property whose value is one call of
sequential choice is composed once for every cell of the grid, and the cells take the items of the
list in their order, over and over again: the cell with the number `k` has the item with the index
`k - 1`, up to whole rounds. It is declared for the cell in the end. No other sequential choice may
have the same position in the source. What else is called does not matter, nor that the first pass
may have chosen, too. -/
theorem choices_in_cell_order {seed : UInt64} {default : GridSize} {compiled : Compiled}
    (h : IsChoice choice position texts) (havoids : Avoids position (before ++ after))
    (hgenerate : generate (.prefixed prefixing) seed
      ((Place.here before after).fill (.rule choice)) default = .ok compiled) :
    let kit := Toolkit.prefixed prefixing
    let reached := (Place.here before after).secondReached (.rule choice) kit seed default
    let last := secondPass kit seed ((Place.here before after).fill (.rule choice)) default
    reached.map Prod.fst = compiled.grid.cells ∧
    reached.map (fun v => v.1.count) = GridSize.upTo compiled.grid.cells.length ∧
    (∀ v ∈ reached, ∃ text, texts[(v.1.count - 1) % texts.length]? = some text ∧
      ((composeRule kit v.1 (some (Selector.ofCell v.1 "")) choice).perform v.2).1 =
        .ok (prefixing.write choice.property (Directive.declare choice.property text)) ∧
      prefixing.write choice.property (Directive.declare choice.property text) ∈
        (last.rules.toList.lookup (Selector.ofCell v.1 "")).getD []) ∧
    compiled.styles = { Stylesheet.ofRules last.rules.toList with
      keyframes := compiled.styles.keyframes } := by
  intro kit reached last
  obtain ⟨-, -, -, hstyles⟩ := generate_passes hgenerate
  obtain ⟨vs, harrivals, hcells, hcounters⟩ := h.secondArrivals havoids hgenerate
  obtain rfl : reached = vs := by
    change compositions (Place.secondArrivals _ _ _ _ _) = vs
    rw [harrivals, compositions, List.filterMap_map]
    exact List.filterMap_some
  refine ⟨hcells, ?_, fun v hv => ?_, hstyles⟩
  · rw [← GridSize.map_count_cells, ← hcells, List.map_map]
    rfl
  obtain ⟨text, htext, s', hcompose, -⟩ :=
    h.perform_composeRule prefixing v.1 (some (Selector.ofCell v.1 "")) v.2
  have hcounter : v.2.context.counter (Builtin.cursor position) = v.1.count - 1 := by
    have := hcounters v hv
    omega
  rw [hcounter] at htext
  refine ⟨text, htext, congrArg Prod.fst hcompose, ?_⟩
  -- What is composed for the cell is declared for it in the end.
  have harrival : (v.1, .composes (Selector.ofCell v.1 "") v.2) ∈
      (Place.here before after).secondArrivals (.rule choice) kit seed default :=
    harrivals ▸ List.mem_map.2 ⟨v, hv, rfl⟩
  obtain ⟨-, values, c, hvalues, hdeclared⟩ :=
    mem_declarations_of_arrival hgenerate h.property_ne_use h.property_ne_grid harrival
  obtain ⟨values', c', hvalues', hwritten, -⟩ :=
    (perform_composeRule_ok kit v.1 h.property_ne_use).1 hcompose
  obtain rfl : values' = values := by
    have := hvalues'.symm.trans hvalues
    exact Except.ok.inj (congrArg Prod.fst this)
  exact hdeclared _ hwritten (Prefixing.write_declare_ne_empty prefixing choice.property text)

/-- With a choice of even cells in front of it and a draw behind it, a choice from two items gives
the first one to the third of three cells again. -/
theorem choices_in_cell_order_of_two :
    let before : List Token := [.condition "even" [] [.rule ⟨"width", [[.call "@pick-n"
      [.ofText "1em", .ofText "2em"] 7]], []⟩]]
    let choice : Rule := ⟨"color", [[.call "@pn" [.ofText "red", .ofText "blue"] 12]], []⟩
    let after : List Token := [.rule ⟨"height", [[.call "@pick" [.ofText "3em"] 20]], []⟩]
    IsChoice choice 12 ["red", "blue"] ∧ Avoids 12 (before ++ after) ∧
    ∃ compiled, generate (.prefixed .none) 1 ((Place.here before after).fill (.rule choice))
        ⟨1, 3, 1⟩ = .ok compiled ∧
      "color: red;" ∈ ((secondPass (.prefixed .none) 1
        ((Place.here before after).fill (.rule choice)) ⟨1, 3, 1⟩).rules.toList.lookup
          "#cell-1-3-1").getD [] := by
  intro before choice after
  have hchoice : IsChoice choice 12 ["red", "blue"] :=
    ⟨by decide, ⟨"@pn", _, rfl, by decide, rfl⟩, by decide, by decide⟩
  have havoids : Avoids 12 (before ++ after) := by decide +kernel
  obtain ⟨compiled, h⟩ := exists_generate_eq (show (generate (.prefixed .none) 1
    ((Place.here before after).fill (.rule choice)) ⟨1, 3, 1⟩).isOk = true by decide +kernel)
  have hgrid : compiled.grid = ⟨1, 3, 1⟩ := by
    rw [(generate_passes h).2.2.1]
    decide +kernel
  obtain ⟨hcells, -, hchosen, -⟩ := choices_in_cell_order hchoice havoids h
  -- The third cell is one of those that are visited.
  have hthird : (⟨1, 3, 1, 3, ⟨1, 3, 1⟩⟩ : Cell) ∈ compiled.grid.cells := by
    rw [hgrid]
    decide
  rw [← hcells] at hthird
  obtain ⟨v, hv, hcell⟩ := List.mem_map.1 hthird
  obtain ⟨text, htext, -, hdeclared⟩ := hchosen v hv
  rw [hcell] at htext hdeclared
  obtain rfl : "red" = text := Option.some.inj htext
  exact ⟨hchoice, havoids, compiled, h, hdeclared⟩

end Visits

end GridStyle
