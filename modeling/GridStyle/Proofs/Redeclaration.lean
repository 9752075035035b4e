import GridStyle.Proofs.Exchange
import GridStyle.Proofs.Expansion.Arrival
import GridStyle.Proofs.HostSizing
import GridStyle.Proofs.PlainValue

/-!
# Declaring a Grid Again

In a tree whose blocks for the host set no grid, only the first grid directive that is composed
counts. Any other one can be deleted, wherever it stands, and the stylesheet stays the same
(`redeclaration_inert`). The sizing of the first one is the only one that the host gets, and the
host gets it once.
-/

namespace GridStyle

open Expanding

/-! ### Directives of cells -/

/-- Some part of a selector list addresses the host. -/
def HasHostPart (list : String) : Prop :=
  ∃ part ∈ selectorParts list, Selector.isHost (Selector.normalize part) = true

/-- The token is no block that has a part for the host and sets a grid. -/
def Token.SetsNoHostGrid : Token → Prop
  | .pseudo _ list styles => HasHostPart list → ∀ r ∈ styles, r.property ≠ "@grid"
  | _ => True

theorem Selector.isHost_normalize {selector : String} (h : isHost selector = true) :
    isHost (normalize selector) = true := by
  obtain ⟨heq, -⟩ | ⟨other, -, rest, -, hhost⟩ := normalize_cases selector
  · rw [heq]
    exact h
  · exact isHost_of_toList_eq hhost

/-- The parts of a list may be taken before or after the host's other name is written as its own. -/
theorem hasHostPart_of_mem {list part : String}
    (hpart : part ∈ selectorParts (Selector.normalize list))
    (hhost : Selector.isHost (Selector.normalize part) = true) : HasHostPart list := by
  have hmem : Selector.normalize part ∈ (selectorParts list).map Selector.normalize := by
    rw [← Selector.map_normalize_selectorParts]
    exact List.mem_map_of_mem hpart
  obtain ⟨part', hpart', heq⟩ := List.mem_map.1 hmem
  exact ⟨part', hpart', by rw [heq]; exact hhost⟩

/-- A block without a part for the host is not searched. -/
theorem hasHostPart_of_addressesHost {list : String} (h : addressesHost list = true) :
    HasHostPart list := by
  obtain ⟨part, hpart, hhost⟩ := List.any_eq_true.1 h
  exact hasHostPart_of_mem hpart (Selector.isHost_normalize hhost)

/-- A block without a part for the host is composed for selectors that are none of the host. -/
theorem hasHostPart_of_partSelector {cell : Cell} {special : Bool} {list part : String}
    (hpart : part ∈ selectorParts (Selector.normalize list))
    (h : Selector.isHost (partSelector cell special part) = true) : HasHostPart list := by
  cases special with
  | true => exact hasHostPart_of_mem hpart h
  | false =>
    rw [partSelector, if_neg Bool.false_ne_true, Selector.isHost_ofCell] at h
    exact absurd h Bool.false_ne_true

/-- Between two states no directive for the host was composed or found. -/
structure CellsOnly (es : List Event) (s s' : Expansion) : Prop where
  directives : ∀ d ∈ directives es, Selector.isHost d.1 = false
  hostGrid : s'.hostGrid = s.hostGrid

namespace CellsOnly

variable {es es' : List Event} {s s₁ s' : Expansion}

theorem of_hostGrid_eq (h : s'.hostGrid = s.hostGrid) : CellsOnly [] s s' :=
  ⟨fun _ hd => absurd hd List.not_mem_nil, h⟩

theorem trans (h : CellsOnly es s s₁) (h' : CellsOnly es' s₁ s') :
    CellsOnly (es ++ es') s s' := by
  refine ⟨fun d hd => ?_, h'.hostGrid.trans h.hostGrid⟩
  rw [directives_append, List.mem_append] at hd
  exact hd.elim (h.directives d) (h'.directives d)

end CellsOnly

section Walk

variable {kit : Toolkit} {cell : Cell}

-- The recursion is that of the search. Rules and keyframes are passed over, so only blocks can set
-- a grid.
mutual

/-- A search finds no grid where no block for the host sets one. -/
theorem hostGrid_of_seekHostGrid : ∀ {tokens : List Token} ⦃s s' : Expansion⦄,
    (∀ t ∈ Token.within tokens, t.SetsNoHostGrid) →
    (seekHostGrid kit cell tokens).perform s = (.ok (), s') → s'.hostGrid = s.hostGrid
  | [], s, s', _, h => by
    rw [seekHostGrid, perform_pure_ok] at h
    rw [h.2]
  | token :: rest, s, s', hno, h => by
    rw [Token.forall_within_cons] at hno
    rw [perform_seekHostGrid_cons] at h
    split at h
    · rw [Prod.mk.injEq] at h
      rw [h.2]
    · rw [perform_bind_ok] at h
      obtain ⟨_, s₁, htoken, hrest⟩ := h
      exact (hostGrid_of_seekHostGrid hno.2.2 hrest).trans
        (hostGrid_of_seekToken hno.1 hno.2.1 htoken)

theorem hostGrid_of_seekToken : ∀ {token : Token} ⦃s s' : Expansion⦄, token.SetsNoHostGrid →
    (∀ t ∈ token.inside, t.SetsNoHostGrid) →
    (seekToken kit cell token).perform s = (.ok (), s') → s'.hostGrid = s.hostGrid
  | .rule _, s, s', _, _, h => by
    rw [seekToken, perform_pure_ok] at h
    rw [h.2]
  | .keyframes _ _, s, s', _, _, h => by
    rw [seekToken, perform_pure_ok] at h
    rw [h.2]
  | .pseudo id list styles, s, s', hself, _, h => by
    rw [seekToken] at h
    split at h
    · next hhost =>
      -- A search only takes over grids of blocks for the host, and these set none.
      obtain ⟨c, found, rfl, hnone⟩ := exists_adopt_of_seekGrids h
      rw [hnone (hself (hasHostPart_of_addressesHost hhost))]
      rfl
    · rw [perform_pure_ok] at h
      rw [h.2]
  | .condition name arguments styles, s, s', _, hin, h => by
    rw [seekToken, perform_bind_ok] at h
    obtain ⟨b, s₁, hholds, hstyles⟩ := h
    obtain ⟨c, -, rfl⟩ := perform_act_ok.1 hholds
    cases b with
    | false =>
      rw [if_neg Bool.false_ne_true, perform_pure_ok] at hstyles
      rw [← hstyles.2]
      rfl
    | true => exact (hostGrid_of_seekHostGrid hin hstyles).trans rfl

end

/-- Only a directive for the host makes the grid that of the host. -/
theorem hostGrid_gridChanges {selector : Option String} {property : String}
    (h : selector.any Selector.isHost = true → property ≠ "@grid") (value : String)
    (s : Expansion) : (s.applyAll (gridChanges selector property value)).hostGrid = s.hostGrid := by
  rw [gridChanges]
  split
  · next hgrid =>
    have hcell : selector.any Selector.isHost = false := by
      rw [← Bool.not_eq_true]
      exact fun hhost => h hhost hgrid
    simp only [hcell, Bool.false_eq_true, if_false, Expansion.applyAll_cons,
      Expansion.applyAll_nil]
    exact s.hostGrid_apply (fun _ h => Change.noConfusion h) (fun _ h => Change.noConfusion h)
  · rfl

/-- A rule that is no grid directive for the host is no event of one. -/
theorem cellsOnly_rule {selector : String} {declaration : Rule} {s s' : Expansion}
    (hhost : Selector.isHost selector = true → declaration.property ≠ "@grid")
    (huse : declaration.property ≠ "@use")
    (h : (declareRule kit cell selector declaration).perform s = (.ok (), s')) :
    CellsOnly (ruleEvents kit cell selector declaration s) s s' := by
  rw [declareRule, perform_bind_ok] at h
  obtain ⟨text, s₁, hrule, hpush⟩ := h
  rw [perform_modify_ok] at hpush
  obtain ⟨texts, c, hc, -, rfl⟩ := (perform_composeRule_ok kit cell huse).1 hrule
  rw [ruleEvents_of_ne huse hc, ruleEvent]
  refine ⟨fun d hd => ?_, ?_⟩
  · split at hd
    · next hgrid =>
      rw [List.mem_singleton.1 hd, ← Bool.not_eq_true]
      exact fun h => hhost h hgrid
    · exact absurd hd List.not_mem_nil
  · have hgrid := hostGrid_gridChanges
      (show (some selector).any Selector.isHost = true → declaration.property ≠ "@grid" from hhost)
      (propertyValue (PropertyKind.ofName declaration.property) cell texts)
      ((s.withContext c).apply (.note (PropertyKind.ofName declaration.property)))
    rw [← hpush]
    exact hgrid.trans (Expansion.hostGrid_apply _ (fun _ h => Change.noConfusion h)
      (fun _ h => Change.noConfusion h))

/-- Where no block for the host sets a grid, all directives are those of cells. -/
theorem eventLaw_cellsOnly (kit : Toolkit) (cell : Cell) :
    EventLaw kit cell Token.SetsNoHostGrid
      (fun selector declaration => Selector.isHost selector = true →
        declaration.property ≠ "@grid")
      fun es s s' => CellsOnly es s s' := by
  refine ⟨CellsOnly.trans, fun _ _ hhost _ _ => .of_hostGrid_eq hhost,
    fun _ _ _ _ _ => .of_hostGrid_eq rfl,
    fun hno h => .of_hostGrid_eq (hostGrid_of_seekHostGrid hno h),
    fun hhost huse h => cellsOnly_rule hhost huse h, fun declaration hhost => ?_,
    fun hself part hpart r hr hhost => hself (hasHostPart_of_partSelector hpart hhost) r hr⟩
  rw [Selector.isHost_ofCell] at hhost
  exact absurd hhost Bool.false_ne_true

end Walk

section Passes

variable {kit : Toolkit} {seed : UInt64} {tokens : List Token} {default : GridSize}
  {compiled : Compiled}

/-- A grid that the first pass found is one that a directive of a cell defined. -/
theorem gridDefined_of_isSome (hno : ∀ t ∈ Token.within tokens, t.SetsNoHostGrid)
    {s : Expansion}
    (h : (expandCell kit true tokens Cell.discovery).perform (.ofSeed seed) = (.ok (), s))
    (hgrid : s.grid.isSome) : s.hostGrid = false ∧ s.gridDefined = true := by
  have hhost := ((eventLaw_cellsOnly kit _).expandCell hno h).hostGrid
  have hrecords := (eventLaw_records (fun _ => True) kit _).expandCell (fun _ _ => trivial) h
  obtain ⟨-, -, heq⟩ := hrecords.grid hhost
  refine ⟨hhost, ?_⟩
  rw [hrecords.defined]
  cases hdirectives : directives (cellEvents kit true tokens Cell.discovery (.ofSeed seed)) with
  | nil =>
    -- Without a directive there is no grid.
    rw [hdirectives] at heq
    rw [heq] at hgrid
    exact absurd hgrid Bool.false_ne_true
  | cons d ds => exact Bool.or_true _

/-- No directive of a generation is one for the host. -/
theorem cellsOnly_generate (hno : ∀ t ∈ Token.within tokens, t.SetsNoHostGrid)
    (h : generate kit seed tokens default = .ok compiled) :
    ∀ d ∈ directives (runEvents kit seed tokens default), Selector.isHost d.1 = false := by
  obtain ⟨hfirst, hsecond, hgrid, -⟩ := generate_passes h
  have hlaw := eventLaw_cellsOnly kit
  -- The first pass is the visit of one cell, and the second those of all cells of the grid.
  have hone := (hlaw Cell.discovery).expandCell hno hfirst
  rw [hgrid] at hsecond
  have hcells : ∀ cell ∈ visitedCells kit seed tokens default, ∀ s s',
      (expandCell kit false tokens cell).perform s = (.ok (), s') →
      CellsOnly (cellEvents kit false tokens cell s) s s' :=
    fun cell _ s s' hcell => (hlaw cell).expandCell hno hcell
  have htwo := (hlaw Cell.discovery).stages hcells hsecond
  intro d hd
  rw [runEvents, directives_append, List.mem_append] at hd
  exact hd.elim (hone.directives d) (htwo.directives d)

end Passes

/-! ### Directives that come too late -/

section Exchange

variable {kit : Toolkit} {cell : Cell} {initial defined : Bool} {declaration : Rule}
  {s : Expansion}

/-- A grid directive of a cell does nothing once there was one. -/
theorem perform_composeRule_redeclared {selector : Option String}
    (hhost : selector.any Selector.isHost = false) (hgrid : declaration.property = "@grid")
    (hplain : IsPlain declaration.value) (hdefined : s.gridDefined = true) :
    (composeRule kit cell selector declaration).perform s = (.ok "", s) := by
  -- The value of the directive is composed, but it draws nothing.
  obtain ⟨texts, htexts⟩ := exists_settles_groupTexts kit.functions cell hplain
  have huse : declaration.property ≠ "@use" := by
    rw [hgrid]
    decide
  rw [composeRule_eq kit cell selector huse, htexts.act_eq_pure, pure_bind, perform_modify_bind,
    hgrid, PropertyKind.ofName_grid, perform_composeProperty_cellGrid kit hhost,
    Expansion.setCellGrid]
  exact congrArg _ (if_pos hdefined)

/-- A walk over the directive does nothing. -/
theorem perform_expandTokens_redeclared (hgrid : declaration.property = "@grid")
    (hplain : IsPlain declaration.value) (hdefined : s.gridDefined = true)
    (hunknown : ¬ (initial = true ∧ s.grid.isSome)) :
    (expandTokens kit cell initial [.rule declaration]).perform s = (.ok (), s) := by
  have hhost : (some (Selector.ofCell cell "")).any Selector.isHost = false := by
    rw [Option.any_some, Selector.isHost_ofCell]
  rw [perform_expandTokens_cons kit cell hunknown, expandToken, expandTokens, bind_assoc,
    perform_bind, perform_composeRule_redeclared hhost hgrid hplain hdefined]
  rfl

theorem perform_expandRules_redeclared {selector : String}
    (hhost : Selector.isHost selector = false) (hgrid : declaration.property = "@grid")
    (hplain : IsPlain declaration.value) (hdefined : s.gridDefined = true) :
    (expandRules kit cell selector [declaration]).perform s = (.ok (), s) := by
  have hhost' : (some selector).any Selector.isHost = false := hhost
  rw [expandRules, perform_bind, perform_composeRule_redeclared hhost' hgrid hplain hdefined]
  simp only [expandRules]
  rfl

theorem perform_ruleTexts_redeclared (hgrid : declaration.property = "@grid")
    (hplain : IsPlain declaration.value) (hdefined : s.gridDefined = true) :
    (ruleTexts kit cell [declaration]).perform s = (.ok [], s) := by
  rw [ruleTexts, List.mapM_cons, List.mapM_nil, bind_assoc, perform_bind,
    perform_composeRule_redeclared rfl hgrid hplain hdefined]
  rfl

/-- A grid directive can be left out where one was composed before it. In the first pass the walk
must not come to it before. -/
theorem exchange_redeclared (kit : Toolkit) (cell : Cell) (initial : Bool)
    (hgrid : declaration.property = "@grid") (hplain : IsPlain declaration.value) :
    Exchange kit cell initial defined Token.SetsNoHostGrid
      (fun a => defined = false → ∀ selector s, a = .composes selector s → s.gridDefined = true)
      (.rule declaration) .nothing := by
  -- Wherever the walk comes to the directive, another one was composed before.
  have hdefined : ∀ {s t : Expansion} {selector : String},
      AgreeIn (.rule declaration) .nothing Token.SetsNoHostGrid initial defined s t →
      (defined = false → ∀ selector' s', Arrival.composes selector s = .composes selector' s' →
        s'.gridDefined = true) → s.gridDefined = true := by
    intro s t selector hR ha
    cases defined with
    | true => exact hR.2.defined rfl
    | false => exact ha rfl selector s rfl
  refine ⟨fun hR hunknown ha => ?_, fun {s t} hR _ _ _ => ?_,
    fun {s t id list before after} hR hself part hpart ha => ?_,
    fun {s t id list before after} _ hself hhost => ?_⟩
  · unfold InStep
    rw [Filling.rule, perform_expandTokens_redeclared hgrid hplain (hdefined hR ha) hunknown]
    rw [Filling.nothing, expandTokens]
    exact ⟨rfl, hR⟩
  · -- The search passes over the directive.
    have hpass : (seekHostGrid kit cell [.rule declaration]).perform s = (.ok (), s) := by
      rw [perform_seekHostGrid_cons, seekToken, seekHostGrid]
      split <;> rfl
    unfold InStep
    rw [Filling.rule, hpass, Filling.nothing, seekHostGrid]
    exact ⟨rfl, hR⟩
  · -- The block around the directive is not for the host, or it would set a grid.
    have hcell : Selector.isHost (partSelector cell (Selector.isSpecial
        (Selector.normalize list)) part) = false := by
      rw [← Bool.not_eq_true]
      exact fun hhost => hself (hasHostPart_of_partSelector hpart hhost) declaration
        (by simp [Filling.rule]) hgrid
    unfold InStep
    rw [Filling.rule, perform_expandRules_redeclared hcell hgrid hplain (hdefined hR ha)]
    simp only [Filling.nothing, expandRules]
    exact ⟨rfl, hR⟩
  · exact absurd hgrid (hself (hasHostPart_of_addressesHost hhost) declaration
      (by simp [Filling.rule]))

end Exchange

/-- The directive in the place is composed in the first pass before any other one. So it is the one
that sets the grid. -/
def Place.Decides (kit : Toolkit) (seed : UInt64) (p : Place) (declaration : Rule) : Prop :=
  ∃ selector s, .composes selector s ∈ p.firstArrivals (.rule declaration) kit seed ∧
    s.gridDefined = false

section Generation

variable {kit : Toolkit} {seed : UInt64} {p : Place} {declaration : Rule}

/-- A grid directive that does not decide the grid can be deleted. -/
theorem generate_deleted
    (hno : ∀ t ∈ Token.within (p.fill (.rule declaration)), t.SetsNoHostGrid)
    (hfound : (firstPass kit seed (p.fill (.rule declaration))).grid.isSome)
    (hgrid : declaration.property = "@grid") (hplain : IsPlain declaration.value)
    (hnot : ¬ p.Decides kit seed declaration) (default : GridSize) :
    generate kit seed (p.fill (.rule declaration)) default =
      generate kit seed (p.fill .nothing) default := by
  -- In the second pass any directive comes too late.
  have hlate : ∀ cell, Exchange kit cell false true Token.SetsNoHostGrid (fun _ => True)
      (.rule declaration) .nothing := fun cell =>
    (exchange_redeclared kit cell false hgrid hplain).of_imp fun _ _ h => Bool.noConfusion h
  refine generate_exchange hno (exchange_redeclared kit Cell.discovery true hgrid hplain)
    (fun a ha _ selector s hs => ?_) hlate (fun cell s t hR => ?_) (fun _ s h => ?_) default
  · rw [← Bool.not_eq_false]
    exact fun hs' => hnot ⟨selector, s, hs ▸ ha, hs'⟩
  · unfold InStep
    rw [Filling.rule, perform_ruleTexts_redeclared hgrid hplain (hR.2.defined rfl)]
    exact ⟨rfl, hR⟩
  · rw [firstPass, h] at hfound
    exact (gridDefined_of_isSome hno h hfound).2

/-- The directive that decides the grid is the first one of all. -/
theorem head?_directives_of_arrival {selector : String} {s : Expansion} {texts : List String}
    {c : Context}
    (hrun : (expandCell kit true (p.fill (.rule declaration)) Cell.discovery).perform
      (.ofSeed seed) = (.ok (), firstPass kit seed (p.fill (.rule declaration))))
    (harrival : .composes selector s ∈ p.firstArrivals (.rule declaration) kit seed)
    (hfirst : s.gridDefined = false) (hgrid : declaration.property = "@grid")
    (hvalue : (groupTexts kit.functions Cell.discovery declaration.value).perform s.context =
      (.ok texts, c)) (default : GridSize) :
    (directives (runEvents kit seed (p.fill (.rule declaration)) default)).head? =
      some (selector, String.intercalate ", " texts) := by
  rw [perform_expandCell] at hrun
  obtain ⟨before, after, -, hevents, hrecords, -⟩ :=
    exists_events_of_arrival (eventLaw_records (fun _ => True) kit Cell.discovery) hrun harrival
  have huse : declaration.property ≠ "@use" := by
    rw [hgrid]
    decide
  -- Directives before it would have defined a grid.
  have hbefore : directives before = [] := by
    have hdefined := hrecords.defined
    rw [hfirst] at hdefined
    cases hdirectives : directives before with
    | nil => rfl
    | cons d ds =>
      rw [hdirectives] at hdefined
      exact absurd hdefined.symm (by simp)
  rw [ruleEvents_of_ne huse hvalue, ruleEvent, if_pos hgrid, hgrid] at hevents
  rw [runEvents, cellEvents, hevents]
  simp only [directives_append, hbefore]
  rfl

end Generation

/-- The texts that rules other than grid directives leave for a selector. -/
def declared (selector : String) (es : List Event) : List String :=
  inPlace selector (es.filter fun e => e.directive?.isNone)

/-- Directives that are not for the host leave nothing in their places. -/
theorem inPlace_eq_declared (selector : String) {es : List Event}
    (h : ∀ d ∈ directives es, Selector.isHost d.1 = false) :
    inPlace selector es = declared selector es := by
  induction es with
  | nil => rfl
  | cons e es ih =>
    rw [inPlace_cons]
    cases e with
    | declaration target text =>
      rw [ih h]
      exact (inPlace_cons selector _ _).symm
    | directive target value =>
      rw [directives, List.filterMap_cons_some (by rfl), List.forall_mem_cons] at h
      have htext : (Event.directive target value).text = "" := by
        rw [Event.text, h.1]
        rfl
      rw [htext, placed, if_neg fun hne => hne.1 rfl, List.nil_append, ih h.2]
      rfl

/-- Declaring a grid again does nothing. Take a tree whose blocks for the host set no grid, and in
which the first pass finds one. Any grid directive whose value calls no function can be deleted
unless it is the one that decides the grid, and the stylesheet is the same. The deciding directive
is the first one that is composed at all. Its grid is that of the stylesheet, and the host is given
its sizing once, in addition to the texts of other rules. -/
theorem redeclaration_inert {kit : Toolkit} {seed : UInt64} {tokens : List Token}
    {default : GridSize} {compiled : Compiled}
    (hno : ∀ t ∈ Token.within tokens, t.SetsNoHostGrid)
    (h : generate kit seed tokens default = .ok compiled)
    (hfound : (firstPass kit seed tokens).grid.isSome) :
    (∀ (p : Place) (declaration : Rule), p.fill (.rule declaration) = tokens →
      declaration.property = "@grid" → IsPlain declaration.value →
      ¬ p.Decides kit seed declaration →
      generate kit seed (p.fill .nothing) default = .ok compiled) ∧
    ∃ before target value after,
      runEvents kit seed tokens default = before ++ .directive target value :: after ∧
      directives before = [] ∧
      (∀ (p : Place) (declaration : Rule), p.fill (.rule declaration) = tokens →
        declaration.property = "@grid" → ∀ selector s texts c,
        .composes selector s ∈ p.firstArrivals (.rule declaration) kit seed →
        s.gridDefined = false →
        (groupTexts kit.functions Cell.discovery declaration.value).perform s.context =
          (.ok texts, c) → selector = target ∧ String.intercalate ", " texts = value) ∧
      compiled.grid = (Directive.readGrid true value).1 ∧
      ∀ selector, Selector.isHost selector = true →
        ((secondPass kit seed tokens default).rules.toList.lookup selector).getD [] =
          declared selector before ++
            placed selector Selector.host (Directive.readGrid true value).2 ++
            declared selector after := by
  obtain ⟨hfirst, -, hgrid, -⟩ := generate_passes h
  obtain ⟨size, hsize⟩ := Option.isSome_iff_exists.1 hfound
  have hhost := (gridDefined_of_isSome hno hfirst hfound).1
  have hcells := cellsOnly_generate hno h
  refine ⟨fun p declaration hp hproperty hplain hnot => ?_, ?_⟩
  · subst hp
    rw [← generate_deleted hno hfound hproperty hplain hnot, h]
  -- The grid was found by the directive that is composed first of all.
  obtain ⟨d, hd, hcell, rfl⟩ := exists_directive_of_firstPass h hsize hhost
  obtain hnone | ⟨before, target, value, after, hevents, hbefore⟩ :=
    directives_cases (runEvents kit seed tokens default)
  · rw [hnone] at hd
    exact absurd hd (Option.some_ne_none d).symm
  have hhead : (directives (runEvents kit seed tokens default)).head? = some (target, value) := by
    rw [hevents, directives_append, hbefore]
    rfl
  obtain rfl : d = (target, value) := Option.some.inj (hd.symm.trans hhead)
  refine ⟨before, target, value, after, hevents, hbefore, ?_, ?_, fun selector hselector => ?_⟩
  · rintro p declaration rfl hproperty selector s texts c harrival hs hvalue
    rw [head?_directives_of_arrival hfirst harrival hs hproperty hvalue, Option.some.injEq,
      Prod.mk.injEq] at hhead
    exact hhead
  · rw [hgrid, hsize]
    rfl
  · -- Only the first directive moves its sizing to the host.
    rw [hevents, directives_append, List.forall_mem_append] at hcells
    have hafter := inPlace_eq_declared selector hcells.2
    rw [lookup_secondPass h (Selector.isSpecial_of_isHost hselector), hevents,
      written_of_first hbefore, moved, if_neg (by rw [hcell]; decide), hafter,
      inPlace_eq_declared selector hcells.1]
    rfl

/-- A place in a condition that does not hold for the first cell, in front of a grid. -/
def evenBeforeGrid : Place :=
  .inside [] (.condition "@even" [] (.here [.rule (.ofText "color" "red")] []))
    [.rule (.ofText "@grid" "1x2 / 10em")]

/-- A grid directive that only the second pass comes to can be deleted, although it stands in front
of the one that decides the grid. -/
theorem redeclaration_inert_even :
    ∃ compiled, generate .builtin 1 (evenBeforeGrid.fill (.rule (.ofText "@grid" "5"))) {} =
        .ok compiled ∧
      generate .builtin 1 (evenBeforeGrid.fill .nothing) {} = .ok compiled ∧
      compiled.grid = ⟨1, 2, 1⟩ ∧
      (((secondPass .builtin 1 (evenBeforeGrid.fill (.rule (.ofText "@grid" "5"))) {}).rules.toList
        ).lookup Selector.host).getD [] = ["width: 10em; height: 10em;"] := by
  obtain ⟨compiled, h⟩ := exists_generate_eq
    (show (generate .builtin 1 (evenBeforeGrid.fill (.rule (.ofText "@grid" "5"))) {}).isOk = true
      by decide +kernel)
  have hno : ∀ t ∈ Token.within (evenBeforeGrid.fill (.rule (.ofText "@grid" "5"))),
      t.SetsNoHostGrid := by
    simp [evenBeforeGrid, Place.fill, TokenPlace.fill, Filling.rule, RuleOf.ofText, Token.within,
      Token.inside, Token.insideRule, Token.SetsNoHostGrid]
  obtain ⟨hdelete, before, target, value, after, hevents, hbefore, -, hgrid, hbucket⟩ :=
    redeclaration_inert hno h (by decide +kernel)
  have hplain : IsPlain (RuleOf.ofText (τ := Token) "@grid" "5").value := by
    simp [IsPlain, RuleOf.ofText]
  -- The first cell does not come to the place.
  have hnot : ¬ evenBeforeGrid.Decides .builtin 1 (.ofText "@grid" "5") := by
    rintro ⟨selector, s, hs, -⟩
    have hnone : (evenBeforeGrid.firstArrivals (.rule (.ofText "@grid" "5")) .builtin 1).isEmpty =
        true := by decide +kernel
    rw [List.isEmpty_iff.1 hnone] at hs
    exact absurd hs List.not_mem_nil
  -- The first directive is the one with the sizing, and no other rule is for the host.
  have hhead : (directives (runEvents .builtin 1
      (evenBeforeGrid.fill (.rule (.ofText "@grid" "5"))) {})).head? =
        some ("#cell-1-1-1", "1x2 / 10em") := by decide +kernel
  have hnothing : declared Selector.host (runEvents .builtin 1
      (evenBeforeGrid.fill (.rule (.ofText "@grid" "5"))) {}) = [] := by decide +kernel
  rw [hevents, directives_append, hbefore] at hhead
  have hvalue : value = "1x2 / 10em" := congrArg Prod.snd (Option.some.inj hhead)
  rw [hevents, declared, List.filter_append, inPlace_append, List.append_eq_nil_iff] at hnothing
  have hafter : declared Selector.host after = [] := hnothing.2
  refine ⟨compiled, h, hdelete evenBeforeGrid _ rfl rfl hplain hnot, ?_, ?_⟩
  · rw [hgrid, hvalue]
    decide +kernel
  · rw [hbucket Selector.host (by decide), hafter, declared, hnothing.1, hvalue]
    decide +kernel

end GridStyle
