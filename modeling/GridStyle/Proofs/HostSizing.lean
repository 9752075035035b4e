import GridStyle.Proofs.Expansion.EventLaw
import GridStyle.Proofs.Expansion.Search
import GridStyle.Proofs.SpecialBlocks

/-!
# The Sizing of the Host

A grid directive can bring a sizing for the host. A directive for the host leaves it in its own
place each time that it is composed. One for a cell moves it to the host's selector, but only if it
is the first grid directive of all. So the host gets one sizing of a cell's directive at most, even
though that directive is composed for every cell (`sizings_of_host`). This directive need not be the
one whose grid the stylesheet has (`sizing_of_other_grid`).

`Records` says what selectors are given by some events, and what the grid is then. It is a law of
events (`eventLaw_records`), and so it holds of both passes (`records_generate`).
-/

namespace GridStyle

/-- Between two states certain selectors are given what some events write, and the grid is that of
the first grid directive unless a grid of the host was found. -/
structure Records (seen : String → Prop) (s : Expansion) (es : List Event) (s' : Expansion) :
    Prop where
  /-- The selectors are given what is written for them. -/
  bucket : ∀ selector, seen selector →
    s'.bucket selector = s.bucket selector ++ written selector s.gridDefined es
  /-- A grid directive is defined after the first one. -/
  defined : s'.gridDefined = (s.gridDefined || !(directives es).isEmpty)
  /-- If no grid is that of the host, all directives are those of cells, and the first counts. -/
  grid : s'.hostGrid = false → s.hostGrid = false ∧
    (∀ d ∈ directives es, Selector.isHost d.1 = false) ∧
    s'.grid = if s.gridDefined then s.grid
      else ((directives es).head?.map fun d => (Directive.readGrid true d.2).1).or s.grid

namespace Records

variable {seen : String → Prop} {s s₁ s' : Expansion} {es es' : List Event}

/-- Nothing is recorded where neither the selectors nor the grid change. -/
theorem of_bucket_eq (hbucket : ∀ selector, seen selector →
      s'.bucket selector = s.bucket selector) (hdefined : s'.gridDefined = s.gridDefined)
    (hhost : s'.hostGrid = s.hostGrid) (hgrid : s'.grid = s.grid) : Records seen s [] s' := by
  refine ⟨fun selector hseen => ?_, ?_, fun h => ⟨hhost ▸ h, ?_, ?_⟩⟩
  · rw [hbucket selector hseen, written, List.append_nil]
  · rw [hdefined]
    exact (Bool.or_false _).symm
  · exact fun d hd => absurd hd List.not_mem_nil
  · rw [hgrid]
    split <;> rfl

/-- Nothing is recorded where neither the declarations nor the grid change. -/
theorem of_eq (hrules : s'.rules = s.rules) (hdefined : s'.gridDefined = s.gridDefined)
    (hhost : s'.hostGrid = s.hostGrid) (hgrid : s'.grid = s.grid) : Records seen s [] s' := by
  refine of_bucket_eq (fun selector _ => ?_) hdefined hhost hgrid
  rw [Expansion.bucket, hrules, Expansion.bucket]

theorem refl (s : Expansion) : Records seen s [] s := of_eq rfl rfl rfl rfl

theorem trans (h : Records seen s es s₁) (h' : Records seen s₁ es' s') :
    Records seen s (es ++ es') s' := by
  refine ⟨fun selector hseen => ?_, ?_, fun hs' => ?_⟩
  · rw [h'.bucket selector hseen, h.bucket selector hseen, h.defined, written_append,
      List.append_assoc]
  · rw [h'.defined, h.defined, directives_append, Bool.or_assoc]
    cases directives es <;> simp
  · obtain ⟨hs₁, hcells', hgrid'⟩ := h'.grid hs'
    obtain ⟨hs, hcells, hgrid⟩ := h.grid hs₁
    refine ⟨hs, fun d hd => ?_, ?_⟩
    · rw [directives_append, List.mem_append] at hd
      exact hd.elim (hcells d) (hcells' d)
    · -- The first directive stands in the first stretch, or else in the second.
      rw [hgrid', hgrid, h.defined, directives_append]
      cases s.gridDefined with
      | true => simp
      | false => cases hes : directives es <;> simp

/-- What happens where nothing is recorded before. -/
theorem after (h' : Records seen s₁ es s') (h : Records seen s [] s₁) : Records seen s es s' :=
  h.trans h'

/-- A declaration for a selector. -/
theorem declaration (selector text : String) (s : Expansion) :
    Records seen s [.declaration selector text] (s.push selector text) := by
  refine ⟨fun other _ => ?_, (Bool.or_false _).symm, fun h => ⟨h, ?_, ?_⟩⟩
  · rw [Expansion.bucket_push, written, written, moved, List.append_nil, List.append_nil]
    rfl
  · exact fun d hd => absurd hd List.not_mem_nil
  · change s.grid = _
    split <;> rfl

/-- A grid directive of the host leaves its sizing in its own place. -/
theorem hostDirective {selector value sizing : String} {size : GridSize}
    (hread : Directive.readGrid true value = (size, sizing))
    (hhost : Selector.isHost selector = true) (s : Expansion) :
    Records seen s [.directive selector value] ((s.setHostGrid size).push selector sizing) := by
  -- The text of the event is the sizing, and nothing is moved.
  have htext : (Event.directive selector value).text = sizing := by
    rw [Event.text, if_pos hhost, hread]
  have hmoved : ∀ other, moved other s.gridDefined (.directive selector value) = [] := by
    intro other
    rw [moved, if_pos (.inr hhost)]
  refine ⟨fun other _ => ?_, (Bool.or_true _).symm, fun h => Bool.noConfusion h⟩
  rw [Expansion.bucket_push, written, written, hmoved, htext, List.append_nil, List.append_nil]
  rfl

/-- Any other grid directive moves its sizing to the host's selector, if it is the first one. -/
theorem cellDirective {selector value sizing : String} {size : GridSize}
    (hread : Directive.readGrid true value = (size, sizing))
    (hhost : Selector.isHost selector = false) (s : Expansion) :
    Records seen s [.directive selector value] (s.setCellGrid size sizing) := by
  have hnot : ¬ Selector.isHost selector = true := by rw [hhost]; exact Bool.false_ne_true
  -- Nothing stays in the place of the directive.
  have htext : (Event.directive selector value).text = "" := by rw [Event.text, if_neg hnot]
  have hplaced : ∀ other, placed other selector "" = [] := fun other =>
    if_neg fun h => h.1 rfl
  have hcell : ∀ d ∈ directives [.directive selector value], Selector.isHost d.1 = false := by
    intro d hd
    rw [List.mem_singleton.1 hd]
    exact hhost
  have hfirst : (directives [.directive selector value]).head? = some (selector, value) := rfl
  rw [Expansion.setCellGrid]
  split
  · next hdefined =>
    -- There was a directive before, and this one does not count.
    refine ⟨fun other _ => ?_, ?_, fun h => ⟨h, hcell, (if_pos hdefined).symm⟩⟩
    · rw [hdefined, written_true, inPlace_cons, Event.selector, htext, hplaced]
      exact (List.append_nil _).symm
    · rw [hdefined, Bool.true_or]
  · next hundefined =>
    -- It is the first one, so the host gets the sizing.
    refine ⟨fun other _ => ?_, (Bool.or_true _).symm, fun h => ⟨h, hcell, ?_⟩⟩
    · have hmoved : moved other s.gridDefined (.directive selector value) =
          placed other Selector.host sizing := by
        rw [moved, if_neg (not_or.2 ⟨hundefined, hnot⟩), hread]
      rw [written, written, hmoved, Event.selector, htext, hplaced, List.nil_append,
        List.append_nil]
      exact s.bucket_push Selector.host sizing other
    · rw [if_neg hundefined, hfirst, Option.map_some, hread]
      rfl

end Records

section Walk

variable {kit : Toolkit} {cell : Cell} {seen : String → Prop}

open Expanding

/-- The text of a grid directive is its sizing if it is for the host, and else empty. -/
theorem propertyText_grid {value sizing : String} {size : GridSize}
    (hread : Directive.readGrid true value = (size, sizing)) (kind : PropertyKind)
    (selector : String) :
    propertyText kit kind (some selector) "@grid" value =
      if Selector.isHost selector then sizing else "" := by
  obtain ⟨size', sizing', hread'⟩ : ∃ size' sizing',
      Directive.readGrid (Selector.isSpecial selector) value = (size', sizing') := ⟨_, _, rfl⟩
  rw [propertyText, Directive.apply, Option.any_some, hread', hread]
  rfl

/-- A rule that includes nothing is an event of its own. -/
theorem records_ruleEvent (selector property : String) (texts : List String) (s : Expansion) :
    Records seen s [ruleEvent kit cell selector property texts]
      ((s.applyAll (gridChanges (some selector) property
        (propertyValue (PropertyKind.ofName property) cell texts))).push selector
          (propertyText kit (PropertyKind.ofName property) (some selector) property
            (propertyValue (PropertyKind.ofName property) cell texts))) := by
  rw [ruleEvent, gridChanges]
  generalize PropertyKind.ofName property = kind
  generalize propertyValue kind cell texts = value
  by_cases hgrid : property = "@grid"
  · obtain ⟨size, sizing, hread⟩ :
        ∃ size sizing, Directive.readGrid true value = (size, sizing) := ⟨_, _, rfl⟩
    rw [if_pos hgrid, if_pos hgrid, hgrid, propertyText_grid hread, hread, Option.any_some]
    cases hhost : Selector.isHost selector with
    | true => exact Records.hostDirective hread hhost s
    | false =>
      -- Nothing stands in the place of the directive.
      have hpush : ∀ t : Expansion, t.push selector "" = t := fun t => rfl
      simp only [Bool.false_eq_true, if_false, hpush]
      exact Records.cellDirective hread hhost s
  · rw [if_neg hgrid, if_neg hgrid]
    exact Records.declaration selector _ s

/-- What is recorded follows the events of a walk. -/
theorem eventLaw_records (seen : String → Prop) (kit : Toolkit) (cell : Cell) :
    EventLaw kit cell (fun _ => True) (fun _ _ => True) fun es s s' => Records seen s es s' := by
  refine ⟨Records.trans, fun hrules hdefined hhost hgrid _ => .of_eq hrules hdefined hhost hgrid,
    fun _ _ _ _ _ => .of_eq rfl rfl rfl rfl, fun {tokens s s'} _ h => ?_,
    fun {selector declaration s s'} _ huse h => ?_, fun _ => trivial, fun _ _ _ _ _ => trivial⟩
  · obtain ⟨c, found, rfl, -⟩ := exists_adopt_of_seekHostGrid h
    cases found with
    | none => exact Records.of_eq rfl rfl rfl rfl
    | some size =>
      -- With a grid of the host it does not matter which directive was the first.
      exact ⟨fun selector _ => (List.append_nil _).symm, (Bool.or_false _).symm,
        fun hhost => Bool.noConfusion hhost⟩
  · rw [declareRule, perform_bind_ok] at h
    obtain ⟨text, s₁, hrule, hpush⟩ := h
    rw [perform_modify_ok] at hpush
    subst hpush
    obtain ⟨texts, c, hc, rfl, rfl⟩ := (perform_composeRule_ok kit cell huse).1 hrule
    rw [ruleEvents_of_ne huse hc]
    have hnote : Records seen s []
        ((s.withContext c).apply (.note (PropertyKind.ofName declaration.property))) := by
      cases PropertyKind.ofName declaration.property <;> exact Records.of_eq rfl rfl rfl rfl
    exact hnote.trans (records_ruleEvent selector declaration.property texts _)

end Walk

/-! ### Whole generations -/

section Generation

variable {kit : Toolkit} {seed : UInt64} {tokens : List Token} {default : GridSize}

open Expanding

/-- What the second pass records, for any selectors. -/
theorem records_secondPass (seen : String → Prop) {compiled : Compiled}
    (h : generate kit seed tokens default = .ok compiled) :
    Records seen ((firstPass kit seed tokens).restart seed)
      (secondEvents kit seed tokens default) (secondPass kit seed tokens default) := by
  obtain ⟨-, hsecond, hgrid, -⟩ := generate_passes h
  rw [hgrid] at hsecond
  have hlaw := eventLaw_records seen kit
  exact (hlaw Cell.discovery).stages
    (fun cell _ _ _ hcell => (hlaw cell).expandCell (fun _ _ => trivial) hcell) hsecond

/-- What the two passes record for the special selectors. -/
theorem records_generate {compiled : Compiled}
    (h : generate kit seed tokens default = .ok compiled) :
    Records (Selector.isSpecial · = true) (.ofSeed seed)
      (cellEvents kit true tokens Cell.discovery (.ofSeed seed)) (firstPass kit seed tokens) ∧
    Records (Selector.isSpecial · = true) (.ofSeed seed) (runEvents kit seed tokens default)
      (secondPass kit seed tokens default) := by
  have hone := (eventLaw_records (Selector.isSpecial · = true) kit Cell.discovery).expandCell
    (fun _ _ => trivial) (generate_passes h).1
  -- Between the passes only what belongs to cells is forgotten.
  have hrestart : Records (Selector.isSpecial · = true) (firstPass kit seed tokens) []
      ((firstPass kit seed tokens).restart seed) :=
    Records.of_bucket_eq (fun _ hspecial => Expansion.bucket_restart _ seed hspecial) rfl rfl rfl
  exact ⟨hone, hone.trans ((records_secondPass _ h).after hrestart)⟩

/-- What is written for a special selector is what it has in the end. -/
theorem lookup_secondPass {compiled : Compiled}
    (h : generate kit seed tokens default = .ok compiled) {selector : String}
    (hspecial : Selector.isSpecial selector = true) :
    ((secondPass kit seed tokens default).rules.toList.lookup selector).getD [] =
      written selector false (runEvents kit seed tokens default) := by
  rw [lookup_eq_bucket, (records_generate h).2.bucket selector hspecial,
    Expansion.bucket_ofSeed, List.nil_append]
  rfl

/-- A grid of the first pass that is not the host's is that of the first directive of all. -/
theorem exists_directive_of_firstPass {compiled : Compiled}
    (h : generate kit seed tokens default = .ok compiled) {size : GridSize}
    (hsize : (firstPass kit seed tokens).grid = some size)
    (hhost : (firstPass kit seed tokens).hostGrid = false) :
    ∃ d, (directives (runEvents kit seed tokens default)).head? = some d ∧
      Selector.isHost d.1 = false ∧ (Directive.readGrid true d.2).1 = size := by
  obtain ⟨-, hcells, hfirst⟩ := (records_generate h).1.grid hhost
  rw [hsize] at hfirst
  -- The first pass has found a grid, so the first directive is one of its events.
  rw [runEvents_eq_append, directives_append]
  cases hdirectives : directives (cellEvents kit true tokens Cell.discovery (.ofSeed seed)) with
  | nil =>
    rw [hdirectives] at hfirst
    exact absurd hfirst (Option.some_ne_none size)
  | cons d ds =>
    rw [hdirectives] at hfirst hcells
    exact ⟨d, rfl, hcells d List.mem_cons_self, (Option.some.inj hfirst).symm⟩

/-- The grid directives in a stylesheet and the host's section. The section has the blocks of the
host's selectors. Every directive for the host that was composed leaves its sizing in its own place,
among the texts of the rules. Besides these the host gets at most one sizing, that of the directive
that was composed first of all, if it is none of the host. If the first pass ends with a grid that
is not that of the host, it is the grid of that directive, which gives its sizing to the host. -/
theorem sizings_of_host {compiled : Compiled}
    (h : generate kit seed tokens default = .ok compiled) :
    compiled.styles.host = Stylesheet.blocks
      ((secondPass kit seed tokens default).rules.toList.filter fun rule =>
        Selector.isHost rule.1) ∧
    ((secondPass kit seed tokens default).rules.toList.map Prod.fst).Nodup ∧
    ∃ before after sizing, runEvents kit seed tokens default = before ++ after ∧
      directives before = [] ∧
      (∀ selector, Selector.isHost selector = true →
        ((secondPass kit seed tokens default).rules.toList.lookup selector).getD [] =
          inPlace selector before ++ placed selector Selector.host sizing ++
            inPlace selector after) ∧
      (sizing = "" ∨ ∃ size, LedByCells size sizing after) ∧
      ∀ size, (firstPass kit seed tokens).grid = some size →
        (firstPass kit seed tokens).hostGrid = false →
        compiled.grid = size ∧ LedByCells size sizing after := by
  obtain ⟨-, -, hgrid, hstyles⟩ := generate_passes h
  have hwell : (secondPass kit seed tokens default).rules.WellFormed := wellFormed_secondPass
  refine ⟨?_, ?_, ?_⟩
  · rw [hstyles]
    exact Stylesheet.host_ofRules _
  · rw [hwell.keys_toList]
    exact hwell.nodup
  obtain ⟨before, after, sizing, hevents, hbefore, hwritten, hsizing⟩ :=
    exists_written_eq (runEvents kit seed tokens default)
  refine ⟨before, after, sizing, hevents, hbefore, fun selector hhost => ?_,
    hsizing.imp And.left id, fun size hsize hnot => ?_⟩
  · rw [lookup_secondPass h (Selector.isSpecial_of_isHost hhost), hwritten]
  · -- The grid is that of the first directive, which is none of the host.
    obtain ⟨d, hd, hcell, rfl⟩ := exists_directive_of_firstPass h hsize hnot
    obtain ⟨-, hnone⟩ | ⟨size, hled⟩ := hsizing
    · rw [hnone d hd] at hcell
      exact absurd hcell.symm Bool.false_ne_true
    · have hsame : (Directive.readGrid true d.2).1 = size := by
        rw [hevents, directives_append, hbefore, List.nil_append] at hd
        exact hled.grid_eq hd
      rw [hgrid, hsize, hsame]
      exact ⟨rfl, hled⟩

end Generation

/-- A grid directive with a sizing, and a rule. -/
def sizedCells : List Token :=
  [.rule (.ofText "@grid" "1x2 / 10em"), .rule (.ofText "color" "red")]

/-- The directive, which three walks compose, sizes the host once. -/
theorem sizings_of_host_sized :
    ∃ compiled, generate .builtin 1 sizedCells {} = .ok compiled ∧ compiled.grid = ⟨1, 2, 1⟩ ∧
      (directives (runEvents .builtin 1 sizedCells {})).length = 3 ∧
      ((secondPass .builtin 1 sizedCells {}).rules.toList.lookup Selector.host).getD [] =
        ["width: 10em; height: 10em;"] := by
  obtain ⟨compiled, h⟩ := exists_generate_eq
    (show (generate .builtin 1 sizedCells {}).isOk = true by decide +kernel)
  obtain ⟨-, -, before, after, sizing, hevents, hbefore, hlookup, -, hfirst⟩ := sizings_of_host h
  obtain ⟨hgrid, target, value, rest, rfl, -, hread⟩ :=
    hfirst ⟨1, 2, 1⟩ (by decide +kernel) (by decide +kernel)
  -- No rule is for the host, so the sizing is all that it has.
  have hnothing : inPlace Selector.host (before ++ .directive target value :: rest) = [] := by
    rw [← hevents]
    decide +kernel
  rw [inPlace_append, List.append_eq_nil_iff] at hnothing
  have hhead : (directives (before ++ .directive target value :: rest)).head? =
      some ("#cell-1-1-1", "1x2 / 10em") := by
    rw [← hevents]
    decide +kernel
  rw [directives_append, hbefore] at hhead
  have hvalue : value = "1x2 / 10em" := congrArg Prod.snd (Option.some.inj hhead)
  have hsizing : (Directive.readGrid true "1x2 / 10em").2 = sizing := by rw [← hvalue, hread]
  refine ⟨compiled, h, hgrid, by decide +kernel, ?_⟩
  rw [hlookup Selector.host (by decide), hnothing.1, hnothing.2, ← hsizing]
  decide +kernel

/-! ### Sizings of other grids -/

/-- A grid directive with a sizing on the cells, and one without on the host. -/
def overruledCells : List Token :=
  [.rule (.ofText "@grid" "3x1 / 1em"), .pseudo 0 ":host" [.ofText "@grid" "1x2"]]

/-- Two grid directives of the host. Only the first one has a sizing. -/
def overruledHost : List Token :=
  [.pseudo 0 ":host" [.ofText "@grid" "3/1em", .ofText "@grid" "1x2"]]

/-- A grid directive with a sizing that the first pass does not come to. -/
def lateCells : List Token :=
  [.condition "@even" [] [.rule (.ofText "@grid" "3x1 / 1em")]]

/-- The host can have a sizing that did not come with the grid of the stylesheet: that of a
directive of the cells which one of the host overrules, that of an earlier directive of the host,
and that of a directive which only the second pass comes to. -/
theorem sizing_of_other_grid :
    (∃ compiled, generate .builtin 1 overruledCells {} = .ok compiled ∧
      compiled.grid = ⟨1, 2, 1⟩ ∧
      compiled.styles.host = ":host \x7b\n  width: 1em; height: 1em;\n\x7d\n") ∧
    (∃ compiled, generate .builtin 1 overruledHost {} = .ok compiled ∧
      compiled.grid = ⟨1, 2, 1⟩ ∧
      compiled.styles.host = ":host \x7b\n  width: 1em; height: 1em;\n\x7d\n") ∧
    ∃ compiled, generate .builtin 1 lateCells ⟨1, 2, 1⟩ = .ok compiled ∧
      compiled.grid = ⟨1, 2, 1⟩ ∧
      compiled.styles.host = ":host \x7b\n  width: 1em; height: 1em;\n\x7d\n" := by
  have hblock : ":host \x7b\n  width: 1em; height: 1em;\n\x7d\n" =
      blockText Selector.host ["width: 1em; height: 1em;"] := by decide
  rw [hblock]
  refine ⟨?_, ?_, ?_⟩
  · -- The first pass moves the sizing to the host before it finds the host's own grid.
    have hrules : (secondPass .builtin 1 overruledCells {}).rules =
        (({} : RuleStore).push Selector.host "width: 1em; height: 1em;").dropCells := rfl
    refine exists_generate_host (by decide +kernel) ?_ (by decide +kernel)
    rw [hrules, RuleStore.toList_push_dropCells (by decide)]
  · have hrules : (secondPass .builtin 1 overruledHost {}).rules =
        (({} : RuleStore).push Selector.host "width: 1em; height: 1em;").dropCells := rfl
    refine exists_generate_host (by decide +kernel) ?_ (by decide +kernel)
    rw [hrules, RuleStore.toList_push_dropCells (by decide)]
  · -- Only the second cell has an even number, so the sizing comes with the second pass.
    have hrules : (secondPass .builtin 1 lateCells ⟨1, 2, 1⟩).rules =
        ({} : RuleStore).dropCells.push Selector.host "width: 1em; height: 1em;" := rfl
    refine exists_generate_host (by decide +kernel) ?_ (by decide +kernel)
    rw [hrules, RuleStore.toList_dropCells_push (by decide)]

end GridStyle
