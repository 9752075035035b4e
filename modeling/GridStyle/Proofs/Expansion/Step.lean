import GridStyle.Proofs.Perform
import GridStyle.Proofs.Selector

/-!
# What One Step Can Do

Everything that a walk does to its state, the shared context apart, is one of a few changes
(`Change`). This module says what the single steps of a walk do in these terms: the text of a
property and the changes that go with it (`perform_composeProperty`), a rule that includes nothing
(`perform_composeRule_ok`), an inclusion (`composeRule_inclusion`), a token, and the two ways to go
on in a list of tokens (`perform_expandTokens_cons`, `perform_expandTokens_known`).
-/

namespace GridStyle

/-- A change that a walk makes to its state. -/
inductive Change where
  /-- A declaration for a selector. -/
  | declare (selector text : String)
  /-- A keyframes definition. -/
  | define (keyframes : Keyframes)
  /-- A feature that a kind of property makes use of. -/
  | note (kind : PropertyKind)
  /-- A special block that counts as composed from now on. -/
  | begin (id : Nat)
  /-- A grid directive of the host. -/
  | hostGrid (size : GridSize)
  /-- A grid directive of a cell and its sizing. -/
  | cellGrid (size : GridSize) (sizing : String)
  /-- A grid directive of the host that the search came upon. -/
  | soughtGrid (size : GridSize)

namespace Expansion

/-- Make a change. -/
def apply (s : Expansion) : Change → Expansion
  | .declare selector text => s.push selector text
  | .define keyframes => { s with keyframes := s.keyframes.register keyframes }
  | .note kind => s.noteFeature kind
  | .begin id => { s with composed := id :: s.composed }
  | .hostGrid size => s.setHostGrid size
  | .cellGrid size sizing => s.setCellGrid size sizing
  | .soughtGrid size => { s with grid := some size, hostGrid := true }

/-- Make several changes in order. -/
def applyAll (s : Expansion) (changes : List Change) : Expansion := changes.foldl apply s

@[simp]
theorem applyAll_nil (s : Expansion) : s.applyAll [] = s := rfl

@[simp]
theorem applyAll_cons (s : Expansion) (change : Change) (changes : List Change) :
    s.applyAll (change :: changes) = (s.apply change).applyAll changes := rfl

/-- The state in which the walk of a cell begins. -/
def enter (s : Expansion) (initial : Bool) (cell : Cell) : Expansion :=
  { s with history := s.history.push cell, discovering := initial }

/-- The state with its own context is the state. -/
@[simp]
theorem withContext_context (s : Expansion) : s.withContext s.context = s := rfl

/-- Only a special block that begins changes which blocks count as composed. -/
theorem composed_apply (s : Expansion) {change : Change} (h : ∀ id, change ≠ .begin id) :
    (s.apply change).composed = s.composed := by
  cases change with
  | begin id => exact absurd rfl (h id)
  | note kind => cases kind <;> rfl
  | cellGrid size sizing =>
    simp only [apply, setCellGrid]
    split <;> rfl
  | _ => rfl

/-- Only directives of the host change whose grid it is. -/
theorem hostGrid_apply (s : Expansion) {change : Change} (hhost : ∀ size, change ≠ .hostGrid size)
    (hsought : ∀ size, change ≠ .soughtGrid size) :
    (s.apply change).hostGrid = s.hostGrid := by
  cases change with
  | hostGrid size => exact absurd rfl (hhost size)
  | soughtGrid size => exact absurd rfl (hsought size)
  | note kind => cases kind <;> rfl
  | cellGrid size sizing =>
    simp only [apply, setCellGrid]
    split <;> rfl
  | _ => rfl

/-- Noting a feature leaves the grid alone. -/
theorem grid_apply_note (s : Expansion) (kind : PropertyKind) :
    (s.apply (.note kind)).grid = s.grid := by
  cases kind <;> rfl

/-- Only a definition changes the keyframes. -/
theorem keyframes_apply (s : Expansion) {c : Change} (h : ∀ k, c ≠ .define k) :
    (s.apply c).keyframes = s.keyframes := by
  cases c with
  | define k => exact absurd rfl (h k)
  | note kind => cases kind <;> rfl
  | cellGrid size sizing =>
    simp only [apply, setCellGrid]
    split <;> rfl
  | _ => rfl

/-- A grid directive is not taken back. -/
theorem gridDefined_apply {s : Expansion} (h : s.gridDefined = true) (c : Change) :
    (s.apply c).gridDefined = true := by
  cases c with
  | note kind => cases kind <;> exact h
  | cellGrid size sizing =>
    simp only [apply, setCellGrid, if_pos h]
    exact h
  | hostGrid size => rfl
  | _ => exact h

/-- No change makes an initial walk of another one. -/
theorem discovering_apply (s : Expansion) (c : Change) :
    (s.apply c).discovering = s.discovering := by
  cases c with
  | note kind => cases kind <;> rfl
  | cellGrid size sizing =>
    simp only [apply, setCellGrid]
    split <;> rfl
  | _ => rfl

/-- A change neither reads nor changes the shared context. -/
theorem apply_withContext (s : Expansion) (context : Context) (c : Change) :
    (s.withContext context).apply c = (s.apply c).withContext context := by
  cases c with
  | note kind => cases kind <;> rfl
  | cellGrid size sizing =>
    cases hdefined : s.gridDefined <;> simp [apply, setCellGrid, withContext, push, hdefined]
  | _ => rfl

theorem context_apply (s : Expansion) (c : Change) : (s.apply c).context = s.context := by
  have h := congrArg context (s.apply_withContext s.context c)
  rw [withContext_context] at h
  exact h

end Expansion

namespace PropertyKind

theorem ofName_grid : ofName "@grid" = .grid := rfl

/-- Inclusions are the rules of one property. -/
theorem ofName_eq_inclusion_iff (property : String) :
    ofName property = .inclusion ↔ property = "@use" := by
  constructor
  · intro h
    unfold ofName at h
    split at h <;> first | rfl | contradiction | (split at h <;> contradiction)
  · rintro rfl
    rfl

/-- Grid directives are the rules of one property. -/
theorem ofName_eq_grid_iff (property : String) :
    ofName property = .grid ↔ property = "@grid" := by
  constructor
  · intro h
    unfold ofName at h
    split at h <;> first | rfl | contradiction | (split at h <;> contradiction)
  · rintro rfl
    rfl

end PropertyKind

/-- The text of a rule that includes nothing, from its value. -/
def propertyText (kit : Toolkit) (kind : PropertyKind) (selector : Option String)
    (property value : String) : String :=
  match Directive.apply property value (selector.any Selector.isSpecial) with
  | none => declarationText kit kind (selector.any Selector.isSpecial) property value
  | some (.grid _ _) =>
    if selector.any Selector.isHost then (Directive.readGrid true value).2 else ""
  | some (.declaration text) =>
    if kind = .placeCell ∧ selector.any Selector.isHost = true then "" else text

/-- A property that is no directive, has no prefixed form and has nothing else written with it is
declared in one piece. -/
theorem propertyText_eq_declare (kit : Toolkit) (selector : Option String) {kind : PropertyKind}
    {property value : String} (happly : ∀ special, Directive.apply property value special = none)
    (hprefixed : property ∉ Prefixing.prefixedProperties) (hclip : kind ≠ .clipPath)
    (hsize : kind ≠ .dimension) :
    propertyText kit kind selector property value = Directive.declare property value := by
  have hwrite : kit.prefixing.write property (Directive.declare property value) =
      Directive.declare property value := by
    cases kit.prefixing with
    | none => rfl
    | vendor => rw [Prefixing.write, if_neg fun h => hprefixed h.1]
  rw [propertyText, happly]
  cases kind with
  | clipPath => exact absurd rfl hclip
  | dimension => exact absurd rfl hsize
  | _ => exact String.append_empty.trans hwrite

/-- The changes that go with the text of a rule: those of a grid directive. -/
def gridChanges (selector : Option String) (property value : String) : List Change :=
  if property = "@grid" then
    let (size, sizing) := Directive.readGrid true value
    [if selector.any Selector.isHost then .hostGrid size else .cellGrid size sizing]
  else []

/-- Only grid directives set a grid. -/
theorem Directive.apply_eq_grid {property value : String} {special : Bool} {size : GridSize}
    {sizing : String} (h : Directive.apply property value special = some (.grid size sizing)) :
    property = "@grid" := by
  unfold Directive.apply at h
  split at h <;> simp_all

namespace Expanding

variable (kit : Toolkit) (cell : Cell)

theorem perform_defineGrid (selector : Option String) (value : String) (s : Expansion) :
    (defineGrid value (selector.any Selector.isHost)).perform s =
      (.ok (if selector.any Selector.isHost then (Directive.readGrid true value).2 else ""),
        s.applyAll (gridChanges selector "@grid" value)) := by
  rw [gridChanges, if_pos rfl]
  unfold defineGrid
  obtain ⟨size, sizing⟩ := Directive.readGrid true value
  cases selector.any Selector.isHost <;> rfl

/-- A rule that includes nothing, from its value: its text and the changes that go with it. -/
theorem perform_composeProperty (kind : PropertyKind) (selector : Option String)
    (property value : String) (s : Expansion) :
    (composeProperty kit kind selector property value).perform s =
      (.ok (propertyText kit kind selector property value),
        s.applyAll (gridChanges selector property value)) := by
  unfold composeProperty propertyText
  by_cases hgrid : property = "@grid"
  · subst hgrid
    exact perform_defineGrid selector value s
  -- Any other property has a text only.
  · rw [gridChanges, if_neg hgrid, Expansion.applyAll_nil]
    simp only
    cases heffect : Directive.apply property value (selector.any Selector.isSpecial) with
    | none => rfl
    | some effect =>
      cases effect with
      | declaration text => rfl
      | grid size sizing => exact absurd (Directive.apply_eq_grid heffect) hgrid

/-- A rule that includes nothing: its value is composed, its feature noted and its text made. -/
theorem composeRule_eq (selector : Option String) {declaration : Rule}
    (h : declaration.property ≠ "@use") :
    composeRule kit cell selector declaration = (do
      let texts ← act (groupTexts kit.functions cell declaration.value)
      modify fun s => s.apply (.note (PropertyKind.ofName declaration.property))
      composeProperty kit (PropertyKind.ofName declaration.property) selector declaration.property
        (propertyValue (PropertyKind.ofName declaration.property) cell texts)) := by
  obtain ⟨property, value, styles⟩ := declaration
  have hkind : PropertyKind.ofName property ≠ .inclusion :=
    fun hkind => h ((PropertyKind.ofName_eq_inclusion_iff property).1 hkind)
  simp only [composeRule, if_neg hkind, Expansion.apply]

/-- A rule that includes nothing succeeds exactly if its value does. -/
theorem perform_composeRule_ok {selector : Option String} {declaration : Rule}
    (h : declaration.property ≠ "@use") {s s' : Expansion} {text : String} :
    (composeRule kit cell selector declaration).perform s = (.ok text, s') ↔
      ∃ texts c, (groupTexts kit.functions cell declaration.value).perform s.context =
          (.ok texts, c) ∧
        text = propertyText kit (PropertyKind.ofName declaration.property) selector
          declaration.property
          (propertyValue (PropertyKind.ofName declaration.property) cell texts) ∧
        s' = ((s.withContext c).apply (.note (PropertyKind.ofName declaration.property))).applyAll
          (gridChanges selector declaration.property
            (propertyValue (PropertyKind.ofName declaration.property) cell texts)) := by
  rw [composeRule_eq kit cell selector h, perform_bind_ok]
  constructor
  · rintro ⟨texts, s₁, hact, hrest⟩
    obtain ⟨c, hc, rfl⟩ := perform_act_ok.1 hact
    rw [perform_modify_bind, perform_composeProperty, Prod.mk.injEq, Except.ok.injEq] at hrest
    exact ⟨texts, c, hc, hrest.1.symm, hrest.2.symm⟩
  · rintro ⟨texts, c, hc, rfl, rfl⟩
    refine ⟨texts, _, perform_act_ok.2 ⟨c, hc, rfl⟩, ?_⟩
    rw [perform_modify_bind, perform_composeProperty]

/-- An inclusion: its value is composed for its effects, and its tokens are walked. -/
theorem composeRule_inclusion (selector : Option String) {declaration : Rule}
    (h : declaration.property = "@use") :
    composeRule kit cell selector declaration = (do
      let _ ← act (groupTexts kit.functions cell declaration.value)
      expandTokens kit cell (← get).discovering declaration.styles
      return "") := by
  obtain ⟨property, value, styles⟩ := declaration
  obtain rfl : property = "@use" := h
  rfl

/-- Without a known grid the walk goes on with the next token. -/
theorem perform_expandTokens_cons {initial : Bool} {token : Token} {rest : List Token}
    {s : Expansion} (h : ¬ (initial = true ∧ s.grid.isSome)) :
    (expandTokens kit cell initial (token :: rest)).perform s =
      (expandToken kit cell initial token >>= fun _ =>
        expandTokens kit cell initial rest).perform s := by
  rw [← Bool.and_eq_true] at h
  simp only [expandTokens, perform_get_bind, if_neg h]

/-- Once a grid is known the rest of an initial walk is a search, unless the grid is that of the
host. -/
theorem perform_expandTokens_known {initial : Bool} {token : Token} {rest : List Token}
    {s : Expansion} (h : initial = true ∧ s.grid.isSome) :
    (expandTokens kit cell initial (token :: rest)).perform s =
      if s.hostGrid then (.ok (), s)
      else (seekHostGrid kit cell (token :: rest)).perform s := by
  rw [← Bool.and_eq_true] at h
  simp only [expandTokens, perform_get_bind, if_pos h]
  cases s.hostGrid <;> rfl

/-- A pseudo block that is not composed yet is composed for each part of its selector. A special
one counts as composed before that. -/
theorem perform_expandToken_pseudo (initial : Bool) (id : Nat) (selector : String)
    (styles : List Rule) (s : Expansion) :
    (expandToken kit cell initial (.pseudo id selector styles)).perform s =
      if id ∈ s.composed then (.ok (), s)
      else ((if Selector.isSpecial (Selector.normalize selector) then beginSpecial id else pure ())
        >>= fun _ => (selectorParts (Selector.normalize selector)).forM fun part =>
          expandRules kit cell (partSelector cell
            (Selector.isSpecial (Selector.normalize selector)) part) styles).perform s := by
  rw [expandToken, perform_get_bind]
  split
  · rfl
  · cases hspecial : Selector.isSpecial (Selector.normalize selector) with
    | true => simp only [hspecial, if_true]
    | false => simp only [hspecial, Bool.false_eq_true, if_false, pure_bind]

/-- The text of a group that is plain text, unless it is empty. -/
theorem perform_groupTexts_text (functions : FunctionRegistry) (text : String) (c : Context) :
    (groupTexts functions cell [[.text text]]).perform c =
      (.ok (if text.isEmpty then [] else [text]), c) := by
  have htexts : ([text].filter (!·.isEmpty)) = if text.isEmpty then [] else [text] := by
    cases hempty : text.isEmpty <;> simp [hempty]
  rw [← htexts]
  have hgroup : (groupText functions cell [.text text] []).perform c = (.ok text, c) := by
    rw [groupText, nodeTexts, nodeText, map_eq_pure_bind, Action.perform_bind]
    change (Except.ok (String.join [text]), c) = _
    rw [String.join_cons, String.join_nil, String.append_empty]
  rw [groupTexts, Action.perform_bind, List.mapM_cons, Action.perform_bind, hgroup]
  rfl

/-- What a grid directive changes if it is not one of the host, and the text in its place. -/
theorem perform_composeProperty_cellGrid {selector : Option String}
    (hselector : selector.any Selector.isHost = false) (value : String) (s : Expansion) :
    (composeProperty kit .grid selector "@grid" value).perform s =
      (.ok "", s.setCellGrid (Directive.readGrid true value).1
        (Directive.readGrid true value).2) := by
  rw [perform_composeProperty, gridChanges, if_pos rfl]
  simp only [propertyText, Directive.apply, hselector, Bool.false_eq_true, if_false]
  rfl

/-- A grid directive on a cell, written as plain text. -/
theorem perform_expandToken_gridText (initial : Bool) (text : String) (s : Expansion) :
    (expandToken kit cell initial (.rule (.ofText "@grid" text))).perform s =
      (.ok (),
        s.setCellGrid (Directive.readGrid true text).1 (Directive.readGrid true text).2) := by
  have hvalue : String.intercalate ", " (if text.isEmpty then [] else [text]) = text := by
    split
    · next hempty => rw [String.intercalate_nil, String.isEmpty_iff.1 hempty]
    · rw [String.intercalate_singleton]
  have huse : (RuleOf.ofText (τ := Token) "@grid" text).property ≠ "@use" := by
    simp only [RuleOf.ofText]
    decide
  have hhost : (some (Selector.ofCell cell "")).any Selector.isHost = false := by
    rw [Option.any_some, Selector.isHost_ofCell]
  rw [expandToken, composeRule_eq kit cell _ huse]
  simp only [RuleOf.ofText, bind_assoc, PropertyKind.ofName_grid, propertyValue]
  rw [perform_bind, perform_act, perform_groupTexts_text]
  simp only [perform_modify_bind, hvalue, Expansion.withContext_context]
  rw [perform_bind, perform_composeProperty_cellGrid kit hhost]
  rfl

/-- The visit of a cell is a walk from the state that knows of it. -/
theorem perform_expandCell (initial : Bool) (tokens : List Token) (s : Expansion) :
    (expandCell kit initial tokens cell).perform s =
      (expandTokens kit cell initial tokens).perform (s.enter initial cell) := rfl

/-- The search looks at the next token unless a grid of the host is known. -/
theorem perform_seekHostGrid_cons (token : Token) (rest : List Token) (s : Expansion) :
    (seekHostGrid kit cell (token :: rest)).perform s =
      if s.hostGrid then (.ok (), s)
      else (seekToken kit cell token >>= fun _ => seekHostGrid kit cell rest).perform s := by
  rw [seekHostGrid, perform_get_bind]
  cases s.hostGrid <;> rfl

end Expanding

end GridStyle
