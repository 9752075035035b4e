import GridStyle.Proofs.SecondPass
import Mathlib.Data.List.Flatten

/-!
# The Parts of Pseudo Blocks

A pseudo block lists several parts, and its rules are composed for each. A block whose parts are all
of one kind treats each by its own kind (`parts_by_kind`): for the host or the container they are
composed once, under the selector of the part, and for cells each time that a walk comes to the
block, under the identifier of the cell. The order of the parts does not matter.

The kind is read off the whole list, so the parts of a mixed list are all treated like the first
(`mixed_parts`).
-/

namespace GridStyle

open Expanding

/-! ### Kinds of parts -/

namespace Selector

/-- The selector for which a part is composed by its own kind. -/
def ofPart (cell : Cell) (part : String) : String :=
  if isSpecial (normalize part) then normalize part else ofCell cell part

/-- All parts of a list are of the kind of the list. -/
def IsUniform (list : String) : Prop :=
  ∀ part ∈ selectorParts list, isSpecial (normalize part) = isSpecial (normalize list)

instance : DecidablePred IsUniform := fun list =>
  inferInstanceAs (Decidable (∀ part ∈ selectorParts list,
    isSpecial (normalize part) = isSpecial (normalize list)))

/-- A uniform list treats its parts by their own kinds. -/
theorem IsUniform.map_partSelector {list : String} (h : IsUniform list) (cell : Cell) :
    (selectorParts (normalize list)).map (partSelector cell (isSpecial (normalize list))) =
      (selectorParts list).map (ofPart cell) := by
  have hown : (selectorParts list).map (ofPart cell) = (selectorParts list).map fun part =>
      if isSpecial (normalize list) then normalize part else ofCell cell part :=
    List.map_congr_left fun part hpart => by rw [ofPart, h part hpart]
  rw [hown]
  cases hspecial : isSpecial (normalize list) with
  | true => exact map_normalize_selectorParts list
  | false =>
    rw [normalize_eq_self_of_not_special (by rw [hspecial]; exact Bool.false_ne_true)]
    rfl

end Selector

/-! ### Runs of a block -/

section Runs

variable (kit : Toolkit) (cell : Cell)

/-- The runs of rules for the parts of a selector list: for every part its selector and the texts
that are not empty. -/
def listRuns (special : Bool) (styles : List Rule) : List String → Expansion → List Run
  | [], _ => []
  | part :: rest, s =>
    (partSelector cell special part,
      (composedTexts kit cell (partSelector cell special part) styles s).filter (· ≠ "")) ::
      listRuns special styles rest
        ((expandRules kit cell (partSelector cell special part) styles).perform s).2

/-- The runs of a block in a state. A block that has begun has none. -/
def blockRuns (id : Nat) (list : String) (styles : List Rule) (s : Expansion) : List Run :=
  if id ∈ s.composed then []
  else listRuns kit cell (Selector.isSpecial (Selector.normalize list)) styles
    (selectorParts (Selector.normalize list))
    (if Selector.isSpecial (Selector.normalize list) then s.apply (.begin id) else s)

/-- The events of a block in a state. -/
def blockEvents (id : Nat) (list : String) (styles : List Rule) (s : Expansion) : List Event :=
  tokenEvents kit cell false (.pseudo id list styles) s

variable {kit cell}

theorem map_fst_listRuns (special : Bool) (styles : List Rule) (parts : List String)
    (s : Expansion) :
    (listRuns kit cell special styles parts s).map Prod.fst =
      parts.map (partSelector cell special) := by
  induction parts generalizing s with
  | nil => rfl
  | cons part rest ih => rw [listRuns, List.map_cons, List.map_cons, ih]

/-- The selectors of the runs of a block that has not begun. -/
theorem map_fst_blockRuns {id : Nat} {list : String} {styles : List Rule} {s : Expansion}
    (h : id ∉ s.composed) :
    (blockRuns kit cell id list styles s).map Prod.fst =
      (selectorParts (Selector.normalize list)).map
        (partSelector cell (Selector.isSpecial (Selector.normalize list))) := by
  rw [blockRuns, if_neg h, map_fst_listRuns]

/-! ### Runs are events -/

theorem selector_ruleEvent (selector property : String) (texts : List String) :
    (ruleEvent kit cell selector property texts).selector = selector := by
  rw [ruleEvent]
  split <;> rfl

/-- The text of an event is that of its rule. -/
theorem text_ruleEvent (selector property : String) (texts : List String) :
    (ruleEvent kit cell selector property texts).text =
      propertyText kit (PropertyKind.ofName property) (some selector) property
        (propertyValue (PropertyKind.ofName property) cell texts) := by
  rw [ruleEvent]
  split
  · next hgrid =>
    obtain ⟨size, sizing, hread⟩ : ∃ size sizing, Directive.readGrid true
        (propertyValue (PropertyKind.ofName property) cell texts) = (size, sizing) := ⟨_, _, rfl⟩
    rw [hgrid] at hread ⊢
    rw [Event.text, hread, propertyText_grid hread]
  · rfl

/-- The texts of rules for a selector are among what their events leave in their own places. -/
theorem composedTexts_sublist (target : String) (styles : List Rule) (s : Expansion) :
    ((composedTexts kit cell target styles s).filter (· ≠ "")).Sublist
      (inPlace target (rulesEvents kit cell target styles s)) := by
  induction styles generalizing s with
  | nil => exact List.nil_sublist _
  | cons declaration rest ih =>
    rcases hrule : (composeRule kit cell (some target) declaration).perform s with ⟨outcome, s₁⟩
    cases outcome with
    | error e =>
      rw [composedTexts, hrule]
      exact List.nil_sublist _
    | ok text =>
      have htexts : composedTexts kit cell target (declaration :: rest) s =
          text :: composedTexts kit cell target rest (s₁.push target text) := by
        rw [composedTexts, hrule]
      have hpush : (declareRule kit cell target declaration).perform s =
          (.ok (), s₁.push target text) := by
        rw [declareRule, perform_bind, hrule]
        rfl
      -- Both lists go rule by rule.
      rw [htexts, rulesEvents, hpush, inPlace_append, ← List.singleton_append, List.filter_append]
      refine List.Sublist.append ?_ (ih _)
      by_cases huse : declaration.property = "@use"
      · -- The text of an inclusion is empty.
        rw [composeRule_inclusion kit cell _ huse, perform_bind_ok] at hrule
        obtain ⟨texts, s₂, -, hrule⟩ := hrule
        rw [perform_get_bind, perform_bind_ok] at hrule
        obtain ⟨_, s₃, -, hrule⟩ := hrule
        rw [perform_pure_ok] at hrule
        rw [← hrule.1]
        exact List.nil_sublist _
      · obtain ⟨texts, c, hc, rfl, -⟩ := (perform_composeRule_ok kit cell huse).1 hrule
        rw [ruleEvents_of_ne huse hc, inPlace_cons, selector_ruleEvent, text_ruleEvent, placed]
        by_cases hempty : propertyText kit (PropertyKind.ofName declaration.property) (some target)
          declaration.property
          (propertyValue (PropertyKind.ofName declaration.property) cell texts) = "" <;>
          simp [hempty]

theorem runsInto_append (selector : String) (runs runs' : List Run) :
    runsInto selector (runs ++ runs') = runsInto selector runs ++ runsInto selector runs' :=
  List.filterMap_append

/-- The runs for the parts of a list are among what the events leave in their own places. -/
theorem listRuns_sublist (selector : String) (special : Bool) (styles : List Rule)
    (parts : List String) (s : Expansion) :
    (runsInto selector (listRuns kit cell special styles parts s)).flatten.Sublist
      (inPlace selector (stages
        (fun part => rulesEvents kit cell (partSelector cell special part) styles)
        (fun part => expandRules kit cell (partSelector cell special part) styles) parts s)) := by
  induction parts generalizing s with
  | nil => exact List.nil_sublist _
  | cons part rest ih =>
    rw [listRuns, stages, inPlace_append, ← List.singleton_append, runsInto_append,
      List.flatten_append]
    refine List.Sublist.append ?_ (ih _)
    -- The run of the part counts only if it is for the selector.
    by_cases htarget : partSelector cell special part = selector
    · rw [runsInto, List.filterMap_cons_some (by rw [if_pos htarget]), List.filterMap_nil,
        List.flatten_cons, List.flatten_nil, List.append_nil, htarget]
      exact composedTexts_sublist selector styles s
    · rw [runsInto, List.filterMap_cons_none (by rw [if_neg htarget])]
      exact List.nil_sublist _

/-- The runs of a block are among what its events leave in their own places. -/
theorem blockRuns_sublist (selector : String) (id : Nat) (list : String) (styles : List Rule)
    (s : Expansion) :
    (runsInto selector (blockRuns kit cell id list styles s)).flatten.Sublist
      (inPlace selector (blockEvents kit cell id list styles s)) := by
  rw [blockRuns, blockEvents, tokenEvents]
  split
  · exact List.nil_sublist _
  · exact listRuns_sublist selector _ styles _ _

end Runs

/-! ### When a block is composed -/

/-- The block counts as composed. -/
def Expansion.begun (s : Expansion) (id : Nat) : Bool := decide (id ∈ s.composed)

/-- At its compositions a block has begun if it had before them, and a special one also after the
first of them. -/
def Begins (special : Bool) (id : Nat) : Bool → List (Cell × Expansion) → Prop
  | _, [] => True
  | begun, v :: vs => v.2.begun id = begun ∧ Begins special id (begun || special) vs

theorem Begins.append {special begun : Bool} {id : Nat} {vs vs' : List (Cell × Expansion)}
    (h : Begins special id begun vs)
    (h' : Begins special id (begun || (special && !vs.isEmpty)) vs') :
    Begins special id begun (vs ++ vs') := by
  induction vs generalizing begun with
  | nil => simpa using h'
  | cons v vs ih =>
    refine ⟨h.1, ih h.2 ?_⟩
    cases special <;> simpa using h'

/-- Of the compositions of a special block only the first one counts, of another block all do. -/
theorem Begins.flatMap_eq {special : Bool} {id : Nat} {vs : List (Cell × Expansion)}
    (h : Begins special id false vs) {β : Type} {g g' : Cell × Expansion → List β}
    (hbegun : ∀ v, v.2.begun id = true → g v = []) (hnot : ∀ v, v.2.begun id = false → g v = g' v) :
    vs.flatMap g = (if special then vs.take 1 else vs).flatMap g' := by
  cases special with
  | false =>
    induction vs with
    | nil => rfl
    | cons v vs ih => rw [List.flatMap_cons, hnot v h.1, ih h.2]; rfl
  | true =>
    cases vs with
    | nil => rfl
    | cons v vs =>
      -- From the second composition on the block has begun.
      have hlater : ∀ {vs : List (Cell × Expansion)}, Begins true id true vs →
          vs.flatMap g = [] := by
        intro vs hvs
        induction vs with
        | nil => rfl
        | cons w vs ih => rw [List.flatMap_cons, hbegun w hvs.1, ih hvs.2]; rfl
      rw [List.flatMap_cons, hnot v h.1, hlater h.2]
      simp

/-- Between two states a block was composed at some places of a walk: its events there are among
those of the walk. -/
structure Comes (kit : Toolkit) (id : Nat) (list : String) (styles : List Rule)
    (vs : List (Cell × Expansion)) (es : List Event) (s s' : Expansion) : Prop where
  /-- Where the block has begun. -/
  begins : Begins (Selector.isSpecial (Selector.normalize list)) id (s.begun id) vs
  /-- Whether the block has begun in the end. -/
  begun : s'.begun id =
    (s.begun id || (Selector.isSpecial (Selector.normalize list) && !vs.isEmpty))
  /-- The events of the block. -/
  events : (vs.flatMap fun v => blockEvents kit v.1 id list styles v.2).Sublist es

namespace Comes

variable {kit : Toolkit} {id : Nat} {list : String} {styles : List Rule}
  {vs vs' : List (Cell × Expansion)} {es es' : List Event} {s s₁ s' : Expansion}

theorem of_begun_eq (es : List Event) (h : s'.begun id = s.begun id) :
    Comes kit id list styles [] es s s' :=
  ⟨trivial, by simp [h], List.nil_sublist es⟩

theorem trans (h : Comes kit id list styles vs es s s₁)
    (h' : Comes kit id list styles vs' es' s₁ s') :
    Comes kit id list styles (vs ++ vs') (es ++ es') s s' := by
  refine ⟨h.begins.append (h.begun ▸ h'.begins), ?_, ?_⟩
  · rw [h'.begun, h.begun]
    cases vs <;> cases Selector.isSpecial (Selector.normalize list) <;> simp
  · rw [List.flatMap_append]
    exact h.events.append h'.events

end Comes

section Walk

variable {kit : Toolkit} {cell : Cell} {id : Nat} {list : String} {styles : List Rule}

/-- Blocks of other identities leave alone whether a block has begun. -/
theorem eventLaw_begun (kit : Toolkit) (cell : Cell) (id : Nat) :
    EventLaw kit cell (fun t => t.identity? ≠ some id) (fun _ _ => True)
      fun _ s s' => s'.begun id = s.begun id := by
  refine ⟨fun h h' => h'.trans h, fun _ _ _ _ hcomposed => ?_, fun other _ _ s hother => ?_,
    fun _ h => ?_, fun {selector declaration s s'} _ huse h => ?_, fun _ => trivial,
    fun _ _ _ _ _ => trivial⟩
  · rw [Expansion.begun, hcomposed, Expansion.begun]
  · have hne : id ≠ other := fun heq => hother (congrArg some heq.symm)
    simp [Expansion.begun, Expansion.apply, hne]
  · obtain ⟨c, found, rfl, -⟩ := exists_adopt_of_seekHostGrid h
    cases found <;> rfl
  · rw [declareRule, perform_bind_ok] at h
    obtain ⟨text, s₁, hrule, hpush⟩ := h
    rw [perform_modify_ok] at hpush
    subst hpush
    rw [Expansion.begun, (composesFor_composeRule huse hrule).composed, Expansion.begun]

/-- A special block has begun when it is composed, and another one has not. -/
theorem begun_of_block (hstyles : ∀ t ∈ Token.withinRules styles, t.identity? ≠ some id)
    {initial : Bool} {s s' : Expansion}
    (h : (expandToken kit cell initial (.pseudo id list styles)).perform s = (.ok (), s')) :
    s'.begun id = (s.begun id || Selector.isSpecial (Selector.normalize list)) := by
  have hlaw := eventLaw_begun kit cell id
  -- The rules of the block include no block of its identity.
  have hparts : ∀ {special : Bool} {s s' : Expansion},
      ((selectorParts (Selector.normalize list)).forM fun part =>
        expandRules kit cell (partSelector cell special part) styles).perform s =
          (.ok PUnit.unit, s') → s'.begun id = s.begun id := fun hrun =>
    hlaw.parts (fun _ _ _ _ => trivial) hstyles hrun
  rw [perform_expandToken_pseudo] at h
  split at h
  · next hid =>
    rw [Prod.mk.injEq] at h
    have hbegun : s.begun id = true := decide_eq_true hid
    rw [← h.2, hbegun, Bool.true_or]
  · next hid =>
    have hbegun : s.begun id = false := decide_eq_false hid
    cases hspecial : Selector.isSpecial (Selector.normalize list) with
    | true =>
      rw [hspecial, if_pos rfl, beginSpecial, perform_modify_bind] at h
      rw [hparts h, Bool.or_true]
      simp [Expansion.begun]
    | false =>
      rw [hspecial, if_neg Bool.false_ne_true, pure_bind] at h
      rw [hparts h, hbegun, Bool.or_false]

/-- A walk comes to a block in a place where no block of the same identity stands around or
beside it. -/
theorem arrivalLaw_comes (kit : Toolkit) (cell : Cell)
    (hstyles : ∀ t ∈ Token.withinRules styles, t.identity? ≠ some id) :
    ArrivalLaw kit cell (fun t => t.identity? ≠ some id) False (.block id list styles)
      fun as es s s' =>
        Comes kit id list styles (compositions (as.map fun a => (cell, a))) es s s' := by
  have hlaw := eventLaw_begun kit cell id
  refine ⟨fun {as as' es es' s s₁ s'} h h' => ?_,
    ⟨fun h h' => h.trans h', fun hrules hdefined hhost hgrid hcomposed => .of_begun_eq _
      (hlaw.silent hrules hdefined hhost hgrid hcomposed), fun other list styles s hother =>
      .of_begun_eq _ (hlaw.begins other list styles s hother), fun hin h => .of_begun_eq _
      (hlaw.searched hin h), fun _ huse h => .of_begun_eq _ (hlaw.rule trivial huse h),
      fun _ => trivial, fun _ _ _ _ _ => trivial⟩, fun {as tokens s s'} has h => ?_,
    fun {initial s s'} hunknown h => ?_, fun h => h.elim⟩
  · rw [List.map_append, compositions_append]
    exact h.trans h'
  · -- In a search nothing is composed.
    have hnone : compositions (as.map fun a => (cell, a)) = [] := by
      rw [compositions, List.filterMap_map, List.filterMap_eq_nil_iff]
      intro a ha
      cases a with
      | composes selector u => exact absurd (has _ ha) Bool.false_ne_true
      | searches u => rfl
    obtain ⟨c, found, rfl, -⟩ := exists_adopt_of_seekHostGrid h
    rw [hnone]
    cases found <;> exact .of_begun_eq _ rfl
  · rw [Filling.block, perform_expandTokens_cons kit cell hunknown, perform_bind_ok] at h
    obtain ⟨_, s₁, htoken, hdone⟩ := h
    rw [expandTokens, perform_pure_ok] at hdone
    obtain ⟨-, rfl⟩ := hdone
    -- Where the walk composes the block, its events are those of the walk.
    refine ⟨⟨rfl, trivial⟩, ?_, ?_⟩
    · rw [begun_of_block hstyles htoken]
      exact congrArg _ (Bool.and_true _).symm
    · rw [Filling.block, events, if_neg hunknown, events, List.append_nil]
      change (blockEvents kit cell id list styles s ++ []).Sublist _
      rw [List.append_nil, blockEvents, tokenEvents, tokenEvents]

end Walk

/-! ### Whole generations -/

/-- Where all identities are different, no block around or beside a place has that of the block in
it, and no block in this one has. -/
theorem Place.identity_ne {p : Place} (hp : p.AmongTokens) {id : Nat} {list : String}
    {styles : List Rule} (hids : (Token.ids (p.fill (.block id list styles))).Nodup) :
    (∀ t ∈ Token.within (p.fill .nothing), t.identity? ≠ some id) ∧
      ∀ t ∈ Token.withinRules styles, t.identity? ≠ some id := by
  -- The identities of the tree are those before, in and behind the block.
  obtain ⟨front, back, hfill⟩ := p.exists_ids_fill hp
  have hblock : Token.ids [.pseudo id list styles] =
      id :: (Token.withinRules styles).filterMap Token.identity? := by
    rw [Token.ids_cons]
    exact List.append_nil _
  rw [hfill, Filling.block, hblock, List.append_assoc, List.cons_append,
    List.perm_middle.nodup_iff, List.nodup_cons, List.mem_append, List.mem_append, not_or,
    not_or] at hids
  obtain ⟨⟨hfront, hinside, hback⟩, -⟩ := hids
  refine ⟨fun t ht heq => ?_, fun t ht heq => hinside (List.mem_filterMap.2 ⟨t, ht, heq⟩)⟩
  have hmem : id ∈ Token.ids (p.fill .nothing) := List.mem_filterMap.2 ⟨t, ht, heq⟩
  rw [hfill, List.mem_append, List.mem_append] at hmem
  exact hmem.elim (fun hmem => hmem.elim hfront List.not_mem_nil) hback

section Generation

variable {kit : Toolkit} {seed : UInt64} {default : GridSize} {compiled : Compiled} {p : Place}
  {id : Nat} {list : String} {styles : List Rule}

/-- The visits of cells come to a block in each of them. -/
theorem comes_cells (hp : p.AmongTokens)
    (hids : (Token.ids (p.fill (.block id list styles))).Nodup) {cells : List Cell}
    {s s' : Expansion}
    (h : (cells.forM (expandCell kit false (p.fill (.block id list styles)))).perform s =
      (.ok PUnit.unit, s')) :
    Comes kit id list styles
      (compositions (along (expandCell kit false (p.fill (.block id list styles)))
        (fun cell s => (p.arrivals (.block id list styles) kit cell false
          (s.enter false cell)).map fun a => (cell, a)) cells s))
      (stages (cellEvents kit false (p.fill (.block id list styles)))
        (expandCell kit false (p.fill (.block id list styles))) cells s) s s' := by
  obtain ⟨haround, hstyles⟩ := p.identity_ne hp hids
  induction cells generalizing s with
  | nil => exact perform_forM_nil_ok.1 h ▸ .of_begun_eq _ rfl
  | cons cell cells ih =>
    rw [perform_forM_cons, perform_bind_ok] at h
    obtain ⟨_, s₁, hcell, hrest⟩ := h
    rw [along, andThen_of_ok hcell, stages, hcell, compositions_append]
    have hwalk := (arrivalLaw_comes kit cell hstyles).expandTokens p (.inl hp) haround hcell
    exact Comes.trans ⟨hwalk.begins, hwalk.begun, hwalk.events⟩ (ih hrest)

/-- Both passes come to a block, and the first composition of all is that of a block that has not
begun. -/
theorem comes_generate (hp : p.AmongTokens)
    (hids : (Token.ids (p.fill (.block id list styles))).Nodup)
    (h : generate kit seed (p.fill (.block id list styles)) default = .ok compiled) :
    Comes kit id list styles
      (p.firstReached (.block id list styles) kit seed ++
        p.secondReached (.block id list styles) kit seed default)
      (runEvents kit seed (p.fill (.block id list styles)) default) (.ofSeed seed)
      (secondPass kit seed (p.fill (.block id list styles)) default) ∧
    ((p.secondReached (.block id list styles) kit seed default).flatMap fun v =>
      blockEvents kit v.1 id list styles v.2).Sublist
        (secondEvents kit seed (p.fill (.block id list styles)) default) := by
  obtain ⟨hfirst, hsecond, hgrid, -⟩ := generate_passes h
  obtain ⟨haround, hstyles⟩ := p.identity_ne hp hids
  rw [hgrid] at hsecond
  have hone := (arrivalLaw_comes kit Cell.discovery hstyles).expandTokens p (.inl hp) haround hfirst
  have htwo := comes_cells hp hids hsecond
  exact ⟨Comes.trans ⟨hone.begins, hone.begun, hone.events⟩ ⟨htwo.begins, htwo.begun, htwo.events⟩,
    htwo.events⟩

/-- Runs that are composed for a selector are among what the events leave for it. -/
theorem runs_sublist (selector : String) {vs : List (Cell × Expansion)} {es : List Event}
    (h : (vs.flatMap fun v => blockEvents kit v.1 id list styles v.2).Sublist es) :
    (runsInto selector (vs.flatMap fun v => blockRuns kit v.1 id list styles v.2)).flatten.Sublist
      (inPlace selector es) := by
  refine List.Sublist.trans ?_ (h.flatMap _)
  change List.Sublist _ (inPlace selector _)
  clear h
  induction vs with
  | nil => exact List.nil_sublist _
  | cons v vs ih =>
    rw [List.flatMap_cons, List.flatMap_cons, runsInto_append, List.flatten_append, inPlace_append]
    exact (blockRuns_sublist selector id list styles v.2).append ih

/-- A pseudo block whose parts are all of one kind treats each by its own kind. Take a block in a
tree, and the states in which the walks of both passes come to it. A block for the host or the
container is composed in the first of them only, for every part once under the selector of the part.
Another one is composed in all of them, for every part under the identifier of the cell. What it is
composed with is declared for these selectors in the end. A selector of a cell has nothing from the
first pass. The walk of a cell comes to the block once at most, unless another block includes it.
The order of the parts does not matter. -/
theorem parts_by_kind (hp : p.AmongTokens)
    (hids : (Token.ids (p.fill (.block id list styles))).Nodup)
    (huniform : Selector.IsUniform list)
    (h : generate kit seed (p.fill (.block id list styles)) default = .ok compiled) :
    let special := Selector.isSpecial (Selector.normalize list)
    let later := p.secondReached (.block id list styles) kit seed default
    let reached := p.firstReached (.block id list styles) kit seed ++ later
    let runs := fun v : Cell × Expansion => blockRuns kit v.1 id list styles v.2
    let last := secondPass kit seed (p.fill (.block id list styles)) default
    compiled.styles = { Stylesheet.ofRules last.rules.toList with
      keyframes := compiled.styles.keyframes } ∧
    (reached.flatMap runs).map Prod.fst = (if special then reached.take 1 else reached).flatMap
      (fun v => (selectorParts list).map (Selector.ofPart v.1)) ∧
    (∀ selector, Selector.isSpecial selector = true →
      (runsInto selector (reached.flatMap runs)).flatten.Sublist
        ((last.rules.toList.lookup selector).getD [])) ∧
    (∀ selector, (runsInto selector (later.flatMap runs)).flatten.Sublist
      ((last.rules.toList.lookup selector).getD [])) ∧
    (∀ selector, Selector.isCell selector = true →
      (last.rules.toList.lookup selector).getD [] =
        inPlace selector (secondEvents kit seed (p.fill (.block id list styles)) default)) ∧
    (p.OutsideBlocks → (later.map Prod.fst).Sublist compiled.grid.cells) ∧
    ∀ list', Selector.IsUniform list' → (selectorParts list').Perm (selectorParts list) →
      ∀ cell s, ((blockRuns kit cell id list' styles s).map Prod.fst).Perm
        ((blockRuns kit cell id list styles s).map Prod.fst) := by
  obtain ⟨hcomes, hlater⟩ := comes_generate hp hids h
  -- The selectors come from where the block has begun, and the declarations from its events.
  refine ⟨(generate_passes h).2.2.2, ?_, fun selector hspecial => ?_, fun selector => ?_,
    fun selector hcell => lookup_secondPass_of_isCell h hcell, fun houtside => ?_,
    fun list' huniform' hperm cell s => ?_⟩
  · have hbegins : Begins _ id false _ := hcomes.begins
    rw [List.map_flatMap]
    refine hbegins.flatMap_eq (fun v hv => ?_) fun v hv => ?_
    · rw [blockRuns, if_pos (of_decide_eq_true hv)]
      rfl
    · rw [map_fst_blockRuns (of_decide_eq_false hv), huniform.map_partSelector]
  · rw [lookup_secondPass h hspecial]
    exact (runs_sublist selector hcomes.events).trans (inPlace_sublist_written selector false _)
  · exact (runs_sublist selector hlater).trans (inPlace_sublist_declarations h selector)
  · rw [(generate_passes h).2.2.1]
    exact Place.cells_secondReached houtside
  · by_cases hid : id ∈ s.composed
    · rw [blockRuns, blockRuns, if_pos hid, if_pos hid]
    · rw [map_fst_blockRuns hid, map_fst_blockRuns hid, huniform.map_partSelector,
        huniform'.map_partSelector]
      exact hperm.map _

end Generation

/-- A place behind a rule. -/
def behindRule : Place := .here [.rule (.ofText "width" "1em")] []

/-- A block for the host and the container leaves its declaration for the host, and one for two
states of the cells leaves it for the second of two cells. -/
theorem parts_by_kind_behind :
    (∃ compiled, generate .builtin 1
        (behindRule.fill (.block 0 ":doodle, :container" [.ofText "color" "red"])) ⟨1, 2, 1⟩ =
          .ok compiled ∧
      ["color: red;"].Sublist (((secondPass .builtin 1
        (behindRule.fill (.block 0 ":doodle, :container" [.ofText "color" "red"])) ⟨1, 2, 1⟩
        ).rules.toList.lookup Selector.host).getD [])) ∧
    ∃ compiled, generate .builtin 1
        (behindRule.fill (.block 0 "::after, :hover" [.ofText "color" "red"])) ⟨1, 2, 1⟩ =
          .ok compiled ∧
      ["color: red;"].Sublist (((secondPass .builtin 1
        (behindRule.fill (.block 0 "::after, :hover" [.ofText "color" "red"])) ⟨1, 2, 1⟩
        ).rules.toList.lookup "#cell-1-2-1:hover").getD []) := by
  constructor
  · obtain ⟨compiled, h⟩ := exists_generate_eq
      (show (generate .builtin 1 (behindRule.fill (.block 0 ":doodle, :container"
        [.ofText "color" "red"])) ⟨1, 2, 1⟩).isOk = true by decide +kernel)
    obtain ⟨-, -, hspecial, -⟩ := parts_by_kind (show behindRule.AmongTokens from trivial)
      (by decide +kernel) (by decide +kernel) h
    have hruns : (runsInto Selector.host
        ((behindRule.firstReached (.block 0 ":doodle, :container" [.ofText "color" "red"])
            .builtin 1 ++
          behindRule.secondReached (.block 0 ":doodle, :container" [.ofText "color" "red"])
            .builtin 1 ⟨1, 2, 1⟩).flatMap fun v =>
          blockRuns .builtin v.1 0 ":doodle, :container" [.ofText "color" "red"] v.2)).flatten =
        ["color: red;"] := by decide +kernel
    exact ⟨compiled, h, hruns ▸ hspecial Selector.host (by decide)⟩
  · obtain ⟨compiled, h⟩ := exists_generate_eq
      (show (generate .builtin 1 (behindRule.fill (.block 0 "::after, :hover"
        [.ofText "color" "red"])) ⟨1, 2, 1⟩).isOk = true by decide +kernel)
    obtain ⟨-, -, -, hcells, -⟩ := parts_by_kind (show behindRule.AmongTokens from trivial)
      (by decide +kernel) (by decide +kernel) h
    have hruns : (runsInto "#cell-1-2-1:hover"
        ((behindRule.secondReached (.block 0 "::after, :hover" [.ofText "color" "red"]) .builtin 1
          ⟨1, 2, 1⟩).flatMap fun v =>
          blockRuns .builtin v.1 0 "::after, :hover" [.ofText "color" "red"] v.2)).flatten =
        ["color: red;"] := by decide +kernel
    exact ⟨compiled, h, hruns ▸ hcells "#cell-1-2-1:hover"⟩

/-- A list that begins with a part for the cells treats the host like them, and one that begins with
the host treats the cells like it. -/
theorem mixed_parts :
    (∃ compiled, generate .builtin 1 [.pseudo 0 ":hover, :host" [.ofText "color" "red"]]
        ⟨1, 2, 1⟩ = .ok compiled ∧
      ((secondPass .builtin 1 [.pseudo 0 ":hover, :host" [.ofText "color" "red"]] ⟨1, 2, 1⟩
        ).rules.toList.lookup Selector.host).getD [] = [] ∧
      ((secondPass .builtin 1 [.pseudo 0 ":hover, :host" [.ofText "color" "red"]] ⟨1, 2, 1⟩
        ).rules.toList.lookup "#cell-1-1-1:host").getD [] = ["color: red;"]) ∧
    ∃ compiled, generate .builtin 1 [.pseudo 0 ":host, :hover" [.ofText "color" "red"]]
        ⟨1, 2, 1⟩ = .ok compiled ∧
      ((secondPass .builtin 1 [.pseudo 0 ":host, :hover" [.ofText "color" "red"]] ⟨1, 2, 1⟩
        ).rules.toList.lookup Selector.host).getD [] = ["color: red;"] ∧
      ((secondPass .builtin 1 [.pseudo 0 ":host, :hover" [.ofText "color" "red"]] ⟨1, 2, 1⟩
        ).rules.toList.lookup "#cell-1-1-1:hover").getD [] = [] := by
  constructor
  · obtain ⟨compiled, h⟩ := exists_generate_eq
      (show (generate .builtin 1 [.pseudo 0 ":hover, :host" [.ofText "color" "red"]]
        ⟨1, 2, 1⟩).isOk = true by decide +kernel)
    -- What is declared is read off the events of the run, which can be evaluated.
    rw [lookup_secondPass h (by decide), lookup_secondPass_of_isCell h (by decide)]
    exact ⟨compiled, h, by decide +kernel, by decide +kernel⟩
  · obtain ⟨compiled, h⟩ := exists_generate_eq
      (show (generate .builtin 1 [.pseudo 0 ":host, :hover" [.ofText "color" "red"]]
        ⟨1, 2, 1⟩).isOk = true by decide +kernel)
    rw [lookup_secondPass h (by decide), lookup_secondPass_of_isCell h (by decide)]
    exact ⟨compiled, h, by decide +kernel, by decide +kernel⟩

end GridStyle
