import GridStyle.Proofs.AnimationWords

/-!
# Lists of Animations

A list of animations reaches a rule as several groups, or as the text of one group that a function
has made. Only groups are given the number of the cell one by one. In one text a single word gets
it: the whole text for `animation-name`, and the first word that can be a name for the shorthand.

So for several cells the two routes agree exactly if no other item has a name to be changed and
every comma stands right behind an item (`Animation.ListAgrees`, `animation_list_routes`), and
otherwise they differ in more than white space.
-/

namespace GridStyle

open Expanding Text

namespace Animation

/-! ### Values and declarations -/

/-- No comma of a list stands behind a blank that belongs to an item with words, and the last item
has words. -/
def CommasAttach (items : List String) : Prop :=
  (∀ item ∈ items.dropLast, TakesComma item) ∧ ∀ item ∈ items.getLast?, trim item.toList ≠ []

/-- The list agrees for a property: whether it comes as groups or as one text does not matter. -/
def ListAgrees (property : String) (items : List String) : Prop :=
  items.length ≤ 1 ∨ CommasAttach items ∧
    if property = "animation-name" then NamesAgree (items.map trimText)
    else ShorthandsAgree (items.map splitWords)

instance : DecidablePred CommasAttach := fun items =>
  inferInstanceAs (Decidable (_ ∧ ∀ item ∈ items.getLast?, trim item.toList ≠ []))

instance (property : String) (items : List String) : Decidable (ListAgrees property items) :=
  inferInstanceAs (Decidable (_ ∨ _ ∧ if property = "animation-name" then
    NamesAgree (items.map trimText) else ShorthandsAgree (items.map splitWords)))

section Declarations

variable {property a b : String}

/-- The semicolon belongs to the last run of a value that does not end with a blank. -/
theorem runs_declare (h : EndsBare a) : runs (Directive.declare property a).toList =
    runs (property ++ ":").toList ++ (runs a.toList).modifyLast (· ++ [';']) := by
  have htext : (Directive.declare property a).toList =
      (property ++ ":").toList ++ ' ' :: (a ++ ";").toList := by
    simp [Directive.declare]
  rw [htext, runs_append_blank (by decide), h.runs_append (forall_mem_of_all (by decide))]
  rfl

theorem eqUpToBlanks_declare_iff (ha : EndsBare a) (hb : EndsBare b) :
    EqUpToBlanks (Directive.declare property a) (Directive.declare property b) ↔
      EqUpToBlanks a b := by
  rw [eqUpToBlanks_iff, runs_declare ha, runs_declare hb, List.append_cancel_left_eq,
    (modifyLast_injective fun _ _ => List.append_cancel_right).eq_iff, eqUpToBlanks_iff]

/-- Behind a blank the semicolon is a run of its own. -/
theorem not_eqUpToBlanks_declare (h : EndsBare b) :
    ¬ EqUpToBlanks (Directive.declare property (a ++ " ")) (Directive.declare property b) := by
  have htext : (Directive.declare property (a ++ " ")).toList =
      (property ++ ": " ++ a).toList ++ ' ' :: [';'] := by
    simp [Directive.declare]
  have hne : runs b.toList ≠ [] := fun hnil =>
    h.trim_ne_nil (trim_eq_nil_iff.2 (runs_eq_nil_iff.1 hnil))
  obtain ⟨front, last, hlast⟩ := List.eq_nil_or_concat' _ |>.resolve_left hne
  have hmem : last ∈ runs b.toList := by
    rw [hlast]
    exact List.mem_append_right _ List.mem_cons_self
  have hrun : last ≠ [] := ne_nil_of_mem_runs hmem
  have hone : runs [';'] = [[';']] := by decide
  rw [eqUpToBlanks_iff, htext, runs_append_blank (by decide), hone, runs_declare h, hlast,
    List.modifyLast_concat, ← List.append_assoc]
  intro heq
  have hends := (List.append_inj' heq rfl).2
  rw [List.cons.injEq, List.self_eq_append_left] at hends
  exact hrun hends.1

end Declarations

section Routes

variable {words : String → List String} (hwords : IsWording words)
  {change changeAll : List String → List String} (hchange : KeepsRuns change)
  (hchangeAll : KeepsRuns changeAll) {items : List String}

include hwords hchange

/-- The value of groups, written word by word. -/
theorem intercalate_groups (hlast : ∀ item ∈ items.getLast?, trim item.toList ≠ []) :
    String.intercalate ", " (items.map fun item => String.intercalate " " (change (words item))) =
        String.intercalate " " (listWords ((items.map words).map change)) ∧
      (items ≠ [] →
        EndsBare (String.intercalate " " (listWords ((items.map words).map change)))) := by
  have hlast' : ∀ ws ∈ ((items.map words).map change).getLast?, ws ≠ [] := by
    intro ws hws
    rw [List.getLast?_map, List.getLast?_map, Option.mem_def, Option.map_eq_some_iff] at hws
    obtain ⟨_, hws, rfl⟩ := hws
    obtain ⟨item, hitem, rfl⟩ := Option.map_eq_some_iff.1 hws
    rw [Ne, hchange.eq_nil_iff hwords.endsBare, hwords.nil_iff]
    exact hlast item hitem
  refine ⟨?_, fun hne => endsBare_intercalate (listWords_ne_nil (by simpa using hne) hlast')
    (endsBare_listWords ?_)⟩
  · rw [← intercalate_listWords hlast', List.map_map, List.map_map]
    rfl
  · rw [List.map_map, List.forall_mem_map]
    exact fun item _ => hchange.endsBare hwords.endsBare

/-- If the last of several items has no words, the groups end with a blank. -/
theorem exists_intercalate_groups_blank (hseveral : 1 < items.length)
    (hlast : ¬ ∀ item ∈ items.getLast?, trim item.toList ≠ []) : ∃ front,
    String.intercalate ", " (items.map fun item => String.intercalate " " (change (words item))) =
      front ++ " " := by
  push Not at hlast
  obtain ⟨item, hitem, hnil⟩ := hlast
  obtain ⟨front, rfl⟩ := List.getLast?_eq_some_iff.1 hitem
  have hfront : front ≠ [] := by
    rintro rfl
    exact absurd hseveral (by simp)
  have hwords' : change (words item) = [] :=
    (hchange.eq_nil_iff hwords.endsBare).2 (hwords.nil_iff.2 hnil)
  rw [List.map_append, String.intercalate_append_of_ne_nil (by simpa using hfront) (by simp),
    List.map_singleton, String.intercalate_singleton, hwords', String.intercalate_nil,
    String.append_empty]
  exact ⟨_ ++ ",", by rw [String.append_assoc]; rfl⟩

include hchangeAll

/-- The groups of several items are declared as a text with the words of their list exactly if the
commas attach and the words are the same. -/
theorem declare_groups {text : String} (property : String) (htext : EndsBare text)
    (hjoined : EqUpToBlanks text (String.intercalate " " (changeAll (joinedWords words items))))
    (hseveral : 1 < items.length) :
    (EqUpToBlanks (Directive.declare property (String.intercalate ", "
          (items.map fun item => String.intercalate " " (change (words item)))))
        (Directive.declare property text) →
      CommasAttach items ∧ (changeAll (listWords (items.map words))).map bare =
        (listWords ((items.map words).map change)).map bare) ∧
    (CommasAttach items →
      changeAll (listWords (items.map words)) = listWords ((items.map words).map change) →
      EqUpToBlanks (Directive.declare property (String.intercalate ", "
          (items.map fun item => String.intercalate " " (change (words item)))))
        (Directive.declare property text)) := by
  have hne : items ≠ [] := by
    rintro rfl
    exact absurd hseveral (by decide)
  have hitems := hwords.endsBare_map items
  by_cases hlast : ∀ item ∈ items.getLast?, trim item.toList ≠ []
  · obtain ⟨hgroups, hends⟩ := intercalate_groups hwords hchange hlast
    rw [hgroups, eqUpToBlanks_declare_iff (hends hne) htext]
    refine ⟨fun h => ?_, fun hattach hsame => ?_⟩
    · have hsame := h.trans hjoined
      -- Both have as many runs, so no comma is a run that the groups do not have.
      have hsum := sum_weight_of_eqUpToBlanks hsame
      rw [hchange.map_weight_listWords hitems,
        hchangeAll.weight (hwords.endsBare_joinedWords items),
        hwords.sum_weight_joinedWords] at hsum
      have hcount : items.dropLast.countP (fun item => !decide (TakesComma item)) = 0 := by omega
      rw [List.countP_eq_zero] at hcount
      have htakes : ∀ item ∈ items.dropLast, TakesComma item := by simpa using hcount
      rw [hwords.joinedWords_eq_listWords htakes] at hsame
      refine ⟨⟨htakes, hlast⟩, (bare_eq_of_eqUpToBlanks ?_ hsame).symm⟩
      rw [hchange.map_weight_listWords hitems, hchangeAll.weight (endsBare_listWords hitems)]
    · rw [← hsame, ← hwords.joinedWords_eq_listWords hattach.1]
      exact hjoined.symm
  · obtain ⟨front, hblank⟩ := exists_intercalate_groups_blank hwords hchange hseveral hlast
    rw [hblank]
    exact ⟨fun h => absurd h (not_eqUpToBlanks_declare htext),
      fun hattach => absurd hattach.2 hlast⟩

end Routes

section Values

variable (count : Nat) {items : List String}

/-- The text of several items has a comma. -/
theorem comma_mem_intercalate (hseveral : 1 < items.length) :
    ',' ∈ (String.intercalate ", " items).toList := by
  obtain ⟨item, next, rest, rfl⟩ := exists_cons_cons hseveral
  rw [String.intercalate_cons_cons, String.toList_append, String.toList_append]
  simp

/-- The value of several names in one text. -/
theorem referAll_text (hseveral : 1 < items.length) :
    referAll .animationName count [String.intercalate ", " items] =
        trimText (String.intercalate ", " items) ++ cellSuffix count ∧
      EndsBare (trimText (String.intercalate ", " items)) := by
  have hcomma : ',' ∈ (trimText (String.intercalate ", " items)).toList := by
    rw [trimText, String.toList_ofList]
    exact (mem_trim_iff (by decide)).2 (comma_mem_intercalate hseveral)
  have hne : trim (String.intercalate ", " items).toList ≠ [] := by
    rw [trimText, String.toList_ofList] at hcomma
    exact List.ne_nil_of_mem hcomma
  have hends : EndsBare (trimText (String.intercalate ", " items)) := endsBare_ofList_trim hne
  refine ⟨?_, hends⟩
  rw [referAll, List.map_singleton, String.intercalate_singleton, if_pos rfl,
    refer_of_not_mem_keywords hends.ne_empty (not_mem_keywords_of_comma hcomma)]

/-- The value of names that come as groups. -/
theorem referAll_names (items : List String) :
    referAll .animationName count items = String.intercalate ", " (items.map fun item =>
      String.intercalate " " ((trimmedWord item).map fun name => refer name count)) := by
  simp only [trimmedWord, ← oneWord_refer, intercalate_oneWord]
  rfl

/-- `namesAgree_iff` for the trimmed words of items. -/
theorem namesAgree_trimmed_iff (hne : items ≠ [])
    (hlast : ∀ item ∈ items.getLast?, trim item.toList ≠ []) :
    (((listWords (items.map trimmedWord)).modifyLast (· ++ cellSuffix count)).map bare =
        (listWords ((items.map trimmedWord).map fun words =>
          words.map fun name => refer name count)).map bare → NamesAgree (items.map trimText)) ∧
    (NamesAgree (items.map trimText) →
      (listWords (items.map trimmedWord)).modifyLast (· ++ cellSuffix count) =
        listWords ((items.map trimmedWord).map fun words =>
          words.map fun name => refer name count)) := by
  have hwords : items.map trimmedWord = (items.map trimText).map oneWord := by
    rw [List.map_map]
    rfl
  have hrefers : ((items.map trimText).map oneWord).map (fun words => words.map fun name =>
      refer name count) = (items.map trimText).map fun name => oneWord (refer name count) := by
    simp only [List.map_map, Function.comp_def, oneWord_refer]
  rw [hwords, hrefers]
  refine namesAgree_iff count (by simpa using hne) fun name hname => ?_
  rw [List.getLast?_map, Option.mem_def, Option.map_eq_some_iff] at hname
  obtain ⟨item, hitem, rfl⟩ := hname
  exact mt trimText_eq_empty_iff.1 (hlast item hitem)

/-- Names that come as groups or as one text are declared alike exactly if the list agrees, and
otherwise in more than white space differently. -/
theorem declare_names (hseveral : 1 < items.length) :
    EqUpToBlanks (Directive.declare "animation-name" (referAll .animationName count items))
        (Directive.declare "animation-name"
          (referAll .animationName count [String.intercalate ", " items])) ↔
      CommasAttach items ∧ NamesAgree (items.map trimText) := by
  obtain ⟨htext, hends⟩ := referAll_text count hseveral
  have hsuffix := not_isBlank_of_mem_cellSuffix count
  have hne : items ≠ [] := List.ne_nil_of_length_pos (Nat.lt_of_succ_lt hseveral)
  have hjoined : EqUpToBlanks (trimText (String.intercalate ", " items) ++ cellSuffix count)
      (String.intercalate " "
        ((joinedWords trimmedWord items).modifyLast (· ++ cellSuffix count))) := by
    have hne := isWording_trimmedWord.joinedWords_ne_nil hseveral
    have hwords := endsBare_intercalate hne (isWording_trimmedWord.endsBare_joinedWords items)
    rw [intercalate_modifyLast _ hne, eqUpToBlanks_iff, hends.runs_append hsuffix,
      hwords.runs_append hsuffix, runs_trimText, runs_joined]
  obtain ⟨hto, hfrom⟩ := declare_groups isWording_trimmedWord (keepsRuns_map_refer count)
    (keepsRuns_modifyLast hsuffix) "animation-name" (hends.append hsuffix) hjoined hseveral
  rw [referAll_names, htext]
  constructor
  · intro h
    obtain ⟨hattach, hbare⟩ := hto h
    exact ⟨hattach, (namesAgree_trimmed_iff count hne hattach.2).1 hbare⟩
  · rintro ⟨hattach, hagree⟩
    exact hfrom hattach ((namesAgree_trimmed_iff count hne hattach.2).2 hagree)

/-- The value of shorthands that come as groups. -/
theorem referAll_shorthands (items : List String) :
    referAll .animation count items = String.intercalate ", " (items.map fun item =>
      String.intercalate " " (referWords count (splitWords item))) := by
  have hkind : PropertyKind.animation ≠ .animationName := by decide
  simp only [referAll, if_neg hkind, referShorthand_eq]

/-- The value of several shorthands in one text. -/
theorem referAll_shorthands_text (hitems : ∀ item ∈ items, IsItem item) :
    referAll .animation count [String.intercalate ", " items] =
      String.intercalate " " (referWords count (joinedWords splitWords items)) := by
  rw [referAll_shorthands, List.map_singleton, String.intercalate_singleton,
    splitWords_intercalate hitems]

/-- Shorthands that come as groups or as one text are declared alike exactly if the list agrees, and
otherwise in more than white space differently. -/
theorem declare_shorthands (hitems : ∀ item ∈ items, IsItem item) (hseveral : 1 < items.length) :
    EqUpToBlanks (Directive.declare "animation" (referAll .animation count items))
        (Directive.declare "animation"
          (referAll .animation count [String.intercalate ", " items])) ↔
      CommasAttach items ∧ ShorthandsAgree (items.map splitWords) := by
  have hkeeps := keepsRuns_referWords count
  have hlist := isWording_splitWords.endsBare_joinedWords items
  have hends : EndsBare (String.intercalate " "
      (referWords count (joinedWords splitWords items))) := by
    refine endsBare_intercalate ?_ (hkeeps.endsBare hlist)
    rw [Ne, hkeeps.eq_nil_iff hlist]
    exact isWording_splitWords.joinedWords_ne_nil hseveral
  obtain ⟨hto, hfrom⟩ := declare_groups isWording_splitWords hkeeps hkeeps "animation" hends rfl
    hseveral
  obtain ⟨hagreeTo, hagreeFrom⟩ :=
    shorthandsAgree_iff count (isWording_splitWords.endsBare_map items)
  rw [referAll_shorthands, referAll_shorthands_text count hitems]
  constructor
  · intro h
    obtain ⟨hattach, hbare⟩ := hto h
    exact ⟨hattach, hagreeTo hbare⟩
  · rintro ⟨hattach, hsame⟩
    exact hfrom hattach (hagreeFrom hsame)

/-- A list of items without blanks at their ends has none itself. -/
theorem trimText_intercalate (hitems : ∀ item ∈ items, item ≠ "")
    (htrimmed : ∀ item ∈ items, trimText item = item) (hne : items ≠ []) :
    String.intercalate " " (listWords (items.map trimmedWord)) = String.intercalate ", " items ∧
      trimText (String.intercalate ", " items) = String.intercalate ", " items := by
  have hlast : ∀ item ∈ items.getLast?, trim item.toList ≠ [] := fun item hitem => by
    have hmem := List.mem_of_getLast? hitem
    rw [Ne, ← trimText_eq_empty_iff, htrimmed item hmem]
    exact hitems item hmem
  have hsame : (items.map fun item => String.intercalate " " (id (trimmedWord item))) = items := by
    refine (List.map_congr_left fun item hmem => ?_).trans (List.map_id' items)
    rw [id, trimmedWord, intercalate_oneWord, htrimmed item hmem]
  obtain ⟨htext, hends⟩ := intercalate_groups isWording_trimmedWord
    (⟨fun _ => rfl, fun h => h⟩ : KeepsRuns id) hlast
  rw [hsame, List.map_id] at htext
  rw [List.map_id, ← htext] at hends
  refine ⟨htext.symm, ?_⟩
  obtain ⟨item, rest, rfl⟩ := List.exists_cons_of_ne_nil hne
  have hitem : trim item.toList = item.toList := by
    rw [← String.toList_ofList (l := trim item.toList), ← trimText,
      htrimmed item List.mem_cons_self]
  have hfull : item.toList ≠ [] := fun hnil =>
    hitems item List.mem_cons_self (String.toList_eq_nil_iff.1 hnil)
  obtain ⟨tail, htail⟩ : ∃ tail, (String.intercalate ", " (item :: rest)).toList =
      item.toList ++ tail := by
    cases rest with
    | nil => exact ⟨[], by simp⟩
    | cons next rest => exact ⟨_, by rw [String.intercalate_cons_cons, String.append_assoc,
        String.toList_append]⟩
  -- The list starts as its first item does, and ends as its last word does.
  rw [trimText, trim_eq_self_iff.2, String.ofList_toList]
  refine ⟨fun hne' => ?_, fun hne' => ?_⟩
  · simp only [htail, List.head_append_of_ne_nil hfull]
    exact (trim_eq_self_iff.1 hitem).1 hfull
  · obtain ⟨front, c, hfront, hc⟩ := hends hne
    simp [hfront, hc]

/-- Without blanks at the ends of the items the values on both routes are the same if the list
agrees. -/
theorem referAll_eq_of_agrees (hitems : ∀ item ∈ items, IsItem item)
    (htrimmed : ∀ item ∈ items, trimText item = item) (hseveral : 1 < items.length)
    (hattach : CommasAttach items) :
    (NamesAgree (items.map trimText) → referAll .animationName count items =
      referAll .animationName count [String.intercalate ", " items]) ∧
    (ShorthandsAgree (items.map splitWords) → referAll .animation count items =
      referAll .animation count [String.intercalate ", " items]) := by
  have hne : items ≠ [] := List.ne_nil_of_length_pos (Nat.lt_of_succ_lt hseveral)
  constructor
  · intro hagree
    obtain ⟨htext, htrim⟩ := trimText_intercalate (fun item hmem => (hitems item hmem).ne_empty)
      htrimmed hne
    have hwords : listWords (items.map trimmedWord) ≠ [] := by
      rw [← isWording_trimmedWord.joinedWords_eq_listWords hattach.1]
      exact isWording_trimmedWord.joinedWords_ne_nil hseveral
    rw [referAll_names, (intercalate_groups isWording_trimmedWord (keepsRuns_map_refer count)
        hattach.2).1, ← (namesAgree_trimmed_iff count hne hattach.2).2 hagree,
      intercalate_modifyLast _ hwords, htext, (referAll_text count hseveral).1, htrim]
  · intro hagree
    obtain ⟨-, hfrom⟩ := shorthandsAgree_iff count (isWording_splitWords.endsBare_map items)
    rw [referAll_shorthands, (intercalate_groups isWording_splitWords (keepsRuns_referWords count)
        hattach.2).1, ← hfrom hagree, referAll_shorthands_text count hitems,
      isWording_splitWords.joinedWords_eq_listWords hattach.1]

end Values

end Animation

/-! ### The two routes -/

section Routes

variable {functions : FunctionRegistry} {cell : Cell}

/-- Groups of one text each have their texts. -/
theorem perform_groupTexts_texts {items : List String} (hitems : ∀ item ∈ items, item ≠ "")
    (c : Context) :
    (groupTexts functions cell (items.map fun item => [.text item])).perform c =
      (.ok items, c) := by
  have hgroup : ∀ item c, (groupText functions cell [.text item] []).perform c =
      (.ok item, c) := by
    intro item c
    rw [groupText, nodeTexts, nodeText, map_eq_pure_bind, Action.perform_bind]
    change (Except.ok (String.join [item]), c) = _
    rw [String.join_cons, String.join_nil, String.append_empty]
  have hmapM : items.mapM (Except.ok : String → Except Failure String) = .ok items := by
    induction items with
    | nil => rfl
    | cons item items ih =>
      rw [List.forall_mem_cons] at hitems
      rw [List.mapM_cons, ih hitems.2]
      rfl
  rw [groupTexts, List.mapM_map, Function.comp_def, Action.perform_bind,
    Action.perform_mapM_of_perform hgroup, hmapM]
  have hkeep : items.filter (!·.isEmpty) = items :=
    List.filter_eq_self.2 fun item hitem => by simpa using hitems item hitem
  change (Except.ok (items.filter (!·.isEmpty)), c) = _
  rw [hkeep]

/-- One group has its text, unless that is empty. -/
theorem perform_groupTexts_group {group : ValueGroup} {text : String} {c c' : Context}
    (h : (groupText functions cell group []).perform c = (.ok text, c')) :
    (groupTexts functions cell [group]).perform c =
      (.ok ([text].filter (!·.isEmpty)), c') := by
  rw [groupTexts, Action.perform_bind, List.mapM_cons, Action.perform_bind, h]
  rfl

/-- Animations are declared in one piece. -/
theorem propertyText_animation (kit : Toolkit) (selector : Option String) {property : String}
    (hproperty : property = "animation" ∨ property = "animation-name") (value : String) :
    propertyText kit (PropertyKind.ofName property) selector property value =
      Directive.declare property value := by
  refine propertyText_eq_declare kit selector (fun _ => ?_) ?_ ?_ ?_ <;>
    rcases hproperty with rfl | rfl <;> first | rfl | decide

/-- A rule of animations writes one declaration of the texts its groups have. -/
theorem perform_composeRule_animation (kit : Toolkit) (cell : Cell) (selector : Option String)
    {property : String} (hproperty : property = "animation" ∨ property = "animation-name")
    {value : List ValueGroup} {texts : List String} {s : Expansion} {c : Context}
    (htexts : (groupTexts kit.functions cell value).perform s.context = (.ok texts, c))
    (styles : List Token) :
    ((composeRule kit cell selector ⟨property, value, styles⟩).perform s).1 =
      .ok (Directive.declare property
        (propertyValue (PropertyKind.ofName property) cell texts)) := by
  have huse : property ≠ "@use" := by
    rcases hproperty with rfl | rfl <;> decide
  have hcompose : ∃ s', (composeRule kit cell selector ⟨property, value, styles⟩).perform s =
      (.ok (propertyText kit (PropertyKind.ofName property) selector property
        (propertyValue (PropertyKind.ofName property) cell texts)), s') :=
    ⟨_, (perform_composeRule_ok kit cell huse).2 ⟨texts, c, htexts, rfl, rfl⟩⟩
  obtain ⟨s', hcompose⟩ := hcompose
  rw [hcompose, propertyText_animation kit selector hproperty]

/-- In a grid of several cells the names of an animation refer to the cell. -/
theorem propertyValue_several {cell : Cell} (hseveral : 1 < cell.grid.count) {property : String}
    (hproperty : property = "animation" ∨ property = "animation-name") (texts : List String) :
    propertyValue (PropertyKind.ofName property) cell texts =
      Animation.referAll (PropertyKind.ofName property) cell.count texts := by
  rcases hproperty with rfl | rfl <;> exact if_pos hseveral

/-- In a grid of one cell they stay as they are. -/
theorem propertyValue_single {cell : Cell} (hsingle : cell.grid.count ≤ 1) {property : String}
    (hproperty : property = "animation" ∨ property = "animation-name") (texts : List String) :
    propertyValue (PropertyKind.ofName property) cell texts = String.intercalate ", " texts := by
  rcases hproperty with rfl | rfl <;> exact if_neg (Nat.not_lt.2 hsingle)

/-- Values of the two routes are declared alike exactly if the grid has one cell or the list agrees,
and otherwise in more than white space differently. -/
theorem declare_routes (cell : Cell) {property : String}
    (hproperty : property = "animation" ∨ property = "animation-name") {items : List String}
    (hitems : ∀ item ∈ items, IsItem item) (hne : items ≠ []) :
    (EqUpToBlanks
        (Directive.declare property (propertyValue (PropertyKind.ofName property) cell items))
        (Directive.declare property (propertyValue (PropertyKind.ofName property) cell
          [String.intercalate ", " items])) ↔
      cell.grid.count ≤ 1 ∨ Animation.ListAgrees property items) ∧
    ((∀ item ∈ items, trimText item = item) →
      cell.grid.count ≤ 1 ∨ Animation.ListAgrees property items →
      propertyValue (PropertyKind.ofName property) cell items =
        propertyValue (PropertyKind.ofName property) cell [String.intercalate ", " items]) := by
  by_cases hsingle : cell.grid.count ≤ 1
  · rw [propertyValue_single hsingle hproperty, propertyValue_single hsingle hproperty,
      String.intercalate_singleton]
    exact ⟨iff_of_true rfl (.inl hsingle), fun _ _ => rfl⟩
  have hseveral := propertyValue_several (Nat.lt_of_not_le hsingle) hproperty
  rw [hseveral, hseveral, or_iff_right hsingle, Animation.ListAgrees]
  by_cases hlong : 1 < items.length
  · rw [or_iff_right (Nat.not_le.2 hlong)]
    have hexact := fun htrimmed hattach => Animation.referAll_eq_of_agrees cell.count hitems
      htrimmed hlong hattach
    rcases hproperty with rfl | rfl
    · exact ⟨Animation.declare_shorthands cell.count hitems hlong,
        fun htrimmed hagree => (hexact htrimmed hagree.1).2 hagree.2⟩
    · exact ⟨Animation.declare_names cell.count hlong,
        fun htrimmed hagree => (hexact htrimmed hagree.1).1 hagree.2⟩
  · -- A single item is its own list.
    obtain ⟨item, rfl⟩ := List.length_eq_one_iff.1
      (Nat.le_antisymm (Nat.not_lt.1 hlong) (List.length_pos_iff.2 hne))
    rw [String.intercalate_singleton]
    exact ⟨iff_of_true rfl (.inl (Nat.le_refl 1)), fun _ _ => rfl⟩

/-- Items that are joined give a text. -/
theorem intercalate_ne_empty {items : List String} (hitems : ∀ item ∈ items, item ≠ "")
    (hne : items ≠ []) : String.intercalate ", " items ≠ "" := by
  obtain ⟨item, rest, rfl⟩ := List.exists_cons_of_ne_nil hne
  have hempty := hitems item List.mem_cons_self
  cases rest with
  | nil => simpa using hempty
  | cons next rest => simp [String.intercalate_cons_cons, hempty]

/-- A list of animations is declared the same as groups and as the text of one group that joins
them, up to runs of white space, exactly if the grid has one cell or the list agrees
(`Animation.ListAgrees`): if the commas stand right behind the items, and all names but the last one
are keywords, or no shorthand but one has a word that can be a name and that word has no comma
behind it. If the items have no blanks at their ends, the declarations are the same then. The items
are any texts that are not empty and close what they open. -/
theorem animation_list_routes (kit : Toolkit) (cell : Cell) (selector : Option String)
    {property : String} (hproperty : property = "animation" ∨ property = "animation-name")
    {items : List String} (hitems : ∀ item ∈ items, IsItem item) {group : ValueGroup}
    {s : Expansion} {c : Context} (hgroup : (groupText kit.functions cell group []).perform
      s.context = (.ok (String.intercalate ", " items), c)) (styles : List Token) :
    ∃ ofGroups ofText,
      ((composeRule kit cell selector
        ⟨property, items.map fun item => [.text item], styles⟩).perform s).1 = .ok ofGroups ∧
      ((composeRule kit cell selector ⟨property, [group], styles⟩).perform s).1 = .ok ofText ∧
      (EqUpToBlanks ofGroups ofText ↔
        cell.grid.count ≤ 1 ∨ Animation.ListAgrees property items) ∧
      ((∀ item ∈ items, trimText item = item) →
        cell.grid.count ≤ 1 ∨ Animation.ListAgrees property items → ofGroups = ofText) := by
  have hempty : ∀ item ∈ items, item ≠ "" := fun item hitem => (hitems item hitem).ne_empty
  have hgroups := perform_composeRule_animation kit cell selector hproperty
    (perform_groupTexts_texts hempty s.context) styles
  have htext := perform_composeRule_animation kit cell selector hproperty
    (perform_groupTexts_group hgroup) styles
  refine ⟨_, _, hgroups, htext, ?_⟩
  -- An empty list has no text on either route.
  by_cases hne : items = []
  · subst hne
    exact ⟨iff_of_true rfl (.inr (.inl (Nat.zero_le 1))), fun _ _ => rfl⟩
  have hjoined : [String.intercalate ", " items].filter (!·.isEmpty) =
      [String.intercalate ", " items] := by
    simpa using intercalate_ne_empty hempty hne
  obtain ⟨hiff, hexact⟩ := declare_routes cell hproperty hitems hne
  rw [hjoined]
  exact ⟨hiff, fun htrimmed hagree => by rw [hexact htrimmed hagree]⟩

/-- A shorthand whose name is not its last word, and a keyword behind it, are declared the same on
both routes. -/
theorem animation_list_routes_of_keyword :
    let cell : Cell := ⟨1, 2, 1, 2, ⟨1, 2, 1⟩⟩
    ∃ text, ((composeRule .builtin cell none ⟨"animation",
        [[.text "fade 1s"], [.text "none"]], []⟩).perform (.ofSeed 1)).1 = .ok text ∧
      ((composeRule .builtin cell none ⟨"animation",
        [[.text "fade 1s, none"]], []⟩).perform (.ofSeed 1)).1 = .ok text := by
  intro cell
  have hitems : ∀ item ∈ ["fade 1s", "none"], IsItem item := by decide
  have hgroup : (groupText Toolkit.builtin.functions cell [.text "fade 1s, none"] []).perform
      (Expansion.ofSeed 1).context =
        (.ok (String.intercalate ", " ["fade 1s", "none"]), (Expansion.ofSeed 1).context) := rfl
  obtain ⟨ofGroups, ofText, hgroups, htext, -, hsame⟩ :=
    animation_list_routes .builtin cell none (.inl rfl) hitems hgroup []
  have hagree : Animation.ListAgrees "animation" ["fade 1s", "none"] := by decide +kernel
  exact ⟨ofGroups, hgroups, hsame (by decide) (.inr hagree) ▸ htext⟩

/-- Two names in one text: only the last one refers to the keyframes of the second cell. -/
theorem names_changed_once :
    (∃ compiled, generate .builtin 1 [.rule ⟨"animation-name", [[.text "a"], [.text "b"]], []⟩]
        ⟨1, 2, 1⟩ = .ok compiled ∧
      ((secondPass .builtin 1 [.rule ⟨"animation-name", [[.text "a"], [.text "b"]], []⟩] ⟨1, 2, 1⟩
        ).rules.toList.lookup "#cell-1-2-1").getD [] = ["animation-name: a-2, b-2;"]) ∧
    (∃ compiled, generate .builtin 1 [.rule ⟨"animation-name", [[.text "a, b"]], []⟩]
        ⟨1, 2, 1⟩ = .ok compiled ∧
      ((secondPass .builtin 1 [.rule ⟨"animation-name", [[.text "a, b"]], []⟩] ⟨1, 2, 1⟩
        ).rules.toList.lookup "#cell-1-2-1").getD [] = ["animation-name: a, b-2;"]) ∧
    ¬ EqUpToBlanks "animation-name: a-2, b-2;" "animation-name: a, b-2;" := by
  refine ⟨?_, ?_, by decide⟩
  · obtain ⟨compiled, h⟩ := exists_generate_eq (show (generate .builtin 1
      [.rule ⟨"animation-name", [[.text "a"], [.text "b"]], []⟩] ⟨1, 2, 1⟩).isOk = true by
        decide +kernel)
    rw [lookup_secondPass_of_isCell h (by decide)]
    exact ⟨compiled, h, by decide +kernel⟩
  · obtain ⟨compiled, h⟩ := exists_generate_eq (show (generate .builtin 1
      [.rule ⟨"animation-name", [[.text "a, b"]], []⟩] ⟨1, 2, 1⟩).isOk = true by decide +kernel)
    rw [lookup_secondPass_of_isCell h (by decide)]
    exact ⟨compiled, h, by decide +kernel⟩

end Routes

end GridStyle
