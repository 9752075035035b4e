import GridStyle.Proofs.AnimationLists
import GridStyle.Proofs.ValueLists

/-!
# The Words of a Shorthand

A shorthand is split into words, one word is changed, and the words are joined again. Splitting the
result gives the same words but for the changed one (`shorthand_changes_one_word`), whatever the
text: the words of a split are parts that no blank splits, and only the last one can end inside of a
quote or a parenthesis (`stayWords_splitWords`), so a blank between two words separates them. What a
name is given at its end is neither a blank nor a mark, so it leaves the words such parts.
-/

namespace GridStyle

open Expanding Text

namespace Text

open Nesting

/-! ### Where words end -/

/-- Without backslashes nothing is protected behind a text. -/
theorem Nesting.escaped_scan {s : Nesting} (hs : s.escaped = false) (cs : List Char) :
    (s.scan false cs).escaped = false := by
  induction cs generalizing s with
  | nil => exact hs
  | cons c cs ih => exact ih (escaped_advance hs c)

/-- Blanks at the ends do not matter to where a scan stands. -/
theorem Nesting.scan_trim (cs : List Char) : scan false {} (trim cs) = scan false {} cs := by
  -- A scan stays where it is through blanks, as these are no marks.
  obtain ⟨front, back, heq, hfront, hback⟩ := exists_eq_append_trim cs
  conv_rhs => rw [heq]
  rw [scan_append, scan_append,
    scan_eq_self (fun c hc => not_mem_marks_of_isBlank (hfront c hc)) rfl,
    scan_eq_self (fun c hc => not_mem_marks_of_isBlank (hback c hc)) (escaped_scan rfl _)]

/-- All parts but the last one end at the top level. -/
theorem atTop_of_cutTop {cutting : Cutting} {s : Nesting} {cs part : List Char}
    {parts : List (List Char)} (hcut : cutTop cutting s cs = part :: parts) :
    (parts ≠ [] → (s.scan cutting.escapes part).atTop = true) ∧
      ∀ part ∈ parts.dropLast, (scan cutting.escapes {} part).atTop = true := by
  induction cs generalizing s part parts with
  | nil =>
    rw [cutTop, List.cons.injEq] at hcut
    obtain ⟨rfl, rfl⟩ := hcut
    simp
  | cons c cs ih =>
    rw [cutTop] at hcut
    split at hcut
    · next hc =>
      -- Behind a separator at the top level the scan is at the start.
      rw [Bool.and_eq_true] at hc
      obtain rfl := eq_start_of_atTop hc.1
      rw [List.cons.injEq] at hcut
      obtain ⟨rfl, rfl⟩ := hcut
      refine ⟨fun _ => rfl, ?_⟩
      obtain ⟨first, rest, hrest⟩ := exists_cutTop_eq cutting {} cs
      rw [hrest]
      cases rest with
      | nil => simp
      | cons next rest =>
        rw [List.dropLast_cons_cons, List.forall_mem_cons]
        exact (ih hrest).imp_left fun hfirst => hfirst (List.cons_ne_nil _ _)
    · obtain ⟨first, rest, hrest⟩ := exists_cutTop_eq cutting (s.advance cutting.escapes c) cs
      rw [hrest, List.modifyHead_cons, List.cons.injEq] at hcut
      obtain ⟨rfl, rfl⟩ := hcut
      have hnext := ih hrest
      exact ⟨hnext.1, hnext.2⟩

/-- Parts that are left in front of the last one were in front of the last one. -/
theorem exists_of_mem_dropLast_tidy {parts : List (List Char)} {part : List Char}
    (h : part ∈ (tidy parts).dropLast) : ∃ whole ∈ parts.dropLast, trim whole = part := by
  obtain rfl | ⟨front, last, rfl⟩ := List.eq_nil_or_concat' parts
  · simp [tidy] at h
  · have hfront : part ∈ tidy front := by
      rw [tidy_append] at h
      -- The last part is left out if it is blank, and then even fewer are in front.
      by_cases hempty : trim last = []
      · have hlast : tidy [last] = [] := by simp [tidy, hempty]
        rw [hlast, List.append_nil] at h
        exact List.dropLast_subset _ h
      · have hlast : tidy [last] = [trim last] := by simp [tidy, hempty]
        rwa [hlast, List.dropLast_concat] at h
    rw [tidy, List.mem_filter, List.mem_map] at hfront
    rw [List.dropLast_concat]
    exact hfront.1

/-- Texts that are words again when they are joined: each is a part of a split at blanks, and all
but the last one end at the top level. -/
structure StayWords (words : List String) : Prop where
  parts : ∀ word ∈ words, IsPart atBlanks word.toList
  atTop : ∀ word ∈ words.dropLast, (scan false {} word.toList).atTop = true

theorem stayWords_splitWords (text : String) : StayWords (splitWords text) := by
  constructor
  · rw [splitWords, List.forall_mem_map]
    intro word hword
    rw [String.toList_ofList]
    exact isPart_of_mem_split hword
  · rw [splitWords, ← List.map_dropLast, List.forall_mem_map]
    intro word hword
    obtain ⟨part, parts, hcut⟩ := exists_cutTop_eq atBlanks {} text.toList
    rw [split_eq, hcut] at hword
    obtain ⟨whole, hwhole, rfl⟩ := exists_of_mem_dropLast_tidy hword
    rw [String.toList_ofList, scan_trim]
    have htop := atTop_of_cutTop hcut
    cases parts with
    | nil => simp at hwhole
    | cons next rest =>
      rw [List.dropLast_cons_cons, List.mem_cons] at hwhole
      obtain rfl | hwhole := hwhole
      · exact htop.1 (List.cons_ne_nil _ _)
      · exact htop.2 whole hwhole

/-- Splitting gives the words that were joined. -/
theorem StayWords.splitWords_intercalate {words : List String} (h : StayWords words) :
    splitWords (String.intercalate " " words) = words := by
  rw [splitWords, String.toList_intercalate]
  have hsplit : split atBlanks ([' '].intercalate (words.map String.toList)) =
      words.map String.toList := by
    refine split_intercalate rfl (by simp) (List.forall_mem_map.2 h.parts) ?_
    rw [← List.map_dropLast]
    exact List.forall_mem_map.2 h.atTop
  rw [show " ".toList = [' '] from rfl, hsplit, List.map_map]
  simp

/-! ### Longer words -/

/-- A part stays one with characters behind it that are no blanks and no separators. -/
theorem IsPart.append {cutting : Cutting} {cs suffix : List Char} (h : IsPart cutting cs)
    (hsuffix : ∀ c ∈ suffix, isBlank c = false ∧ cutting.separates c = false) :
    IsPart cutting (cs ++ suffix) := by
  refine ⟨List.append_ne_nil_of_left_ne_nil h.ne_nil _, ?_, ?_⟩
  · obtain ⟨hfirst, hlast⟩ := trim_eq_self_iff.1 h.trimmed
    have hstay : suffix.rdropWhile isBlank = suffix := List.rdropWhile_eq_self_iff.2 fun hne => by
      rw [(hsuffix _ (List.getLast_mem hne)).1]
      exact Bool.false_ne_true
    rw [trim_append h.ne_nil (by simpa using hfirst h.ne_nil) (by simpa using hlast h.ne_nil),
      hstay]
  · exact (separatesAt_append _ _ _).2
      ⟨h.whole, whole_of_not_separates fun c hc => (hsuffix c hc).2⟩

end Text

namespace Animation

/-- What a name of a cell ends with has no marks. -/
theorem not_mem_marks_of_mem_cellSuffix (count : Nat) :
    ∀ c ∈ (cellSuffix count).toList, c ∉ marks := by
  intro c hc
  rw [toList_cellSuffix, List.mem_cons] at hc
  rcases hc with rfl | hc
  · decide
  · have hdigit := isDigit_of_mem_toString c hc
    intro hmark
    have hmarks : marks.all (fun mark => !mark.isDigit) = true := by decide
    simpa [hdigit] using List.all_eq_true.1 hmarks c hmark

/-- One changed element among the others. -/
theorem changeFirst_cases {α : Type} (p : α → Bool) (f : α → α) (as : List α) :
    ((∀ a ∈ as, p a = false) ∧ changeFirst p f as = as) ∨
      ∃ front a back, as = front ++ a :: back ∧ (∀ a ∈ front, p a = false) ∧ p a = true ∧
        changeFirst p f as = front ++ f a :: back := by
  induction as with
  | nil => exact .inl ⟨by simp, rfl⟩
  | cons a as ih =>
    rw [changeFirst, List.forall_mem_cons]
    split
    · next ha => exact .inr ⟨[], a, as, rfl, by simp, ha, rfl⟩
    · next ha =>
      rw [Bool.not_eq_true] at ha
      rcases ih with ⟨hnone, hsame⟩ | ⟨front, b, back, rfl, hfront, hb, hchange⟩
      · exact .inl ⟨⟨ha, hnone⟩, by rw [hsame]⟩
      · exact .inr ⟨a :: front, b, back, rfl, List.forall_mem_cons.2 ⟨ha, hfront⟩, hb,
          by rw [hchange]; rfl⟩

theorem dropLast_changeFirst {α : Type} (p : α → Bool) (f : α → α) (as : List α) :
    (changeFirst p f as).dropLast = changeFirst p f as.dropLast := by
  obtain rfl | ⟨front, last, rfl⟩ := List.eq_nil_or_concat' as
  · rfl
  · rw [changeFirst_append, List.dropLast_concat]
    split
    · rw [List.dropLast_concat]
    · next hnone =>
      -- One element stays one, changed or not.
      obtain ⟨changed, hchanged⟩ : ∃ changed, changeFirst p f [last] = [changed] := by
        cases hlast : p last <;> simp [changeFirst, hlast]
      rw [hchanged, List.dropLast_concat, changeFirst_of_any_eq_false (by simpa using hnone)]

/-- Words stay words if a name among them refers to the keyframes of a cell. -/
theorem stayWords_referWords {words : List String} (h : StayWords words) (count : Nat) :
    StayWords (referWords count words) := by
  have hsuffix := not_isBlank_of_mem_cellSuffix count
  -- The end of a cell's name has no blanks, which keeps the parts, and no marks, which keeps where
  -- they end.
  constructor
  · refine forall_changeFirst h.parts fun word hword => ?_
    rw [refer]
    split
    · exact hword
    · rw [cellName_eq, String.toList_append]
      exact hword.append fun c hc => ⟨hsuffix c hc, hsuffix c hc⟩
  · rw [referWords, dropLast_changeFirst]
    refine forall_changeFirst h.atTop fun word hword => ?_
    rw [refer]
    split
    · exact hword
    · rw [cellName_eq, String.toList_append, Nesting.scan_append,
        Nesting.scan_eq_self (not_mem_marks_of_mem_cellSuffix count) (Nesting.escaped_scan rfl _)]
      exact hword

/-- A shorthand whose first name refers to the keyframes of a cell has the same words but for that
name. -/
theorem splitWords_referShorthand (count : Nat) (text : String) :
    splitWords (referShorthand count text) = referWords count (splitWords text) :=
  (stayWords_referWords (stayWords_splitWords text) count).splitWords_intercalate

/-- A text that is empty has no words to change, so it may as well be left out. -/
theorem referAll_group (count : Nat) (text : String) :
    referAll .animation count ([text].filter (!·.isEmpty)) = referShorthand count text := by
  by_cases hempty : text = ""
  · subst hempty
    rfl
  · have hkeep : [text].filter (!·.isEmpty) = [text] := by simp [hempty]
    rw [hkeep, referAll, List.map_singleton, String.intercalate_singleton, if_neg (by decide)]

end Animation

/-! ### Rules -/

section Rules

variable {kit : Toolkit} {cell : Cell} {selector : Option String} {group : ValueGroup}
  {styles : List Token} {s : Expansion} {text : String} {c : Context}

/-- The shorthand of one group is declared with a name of the cell. -/
theorem perform_composeRule_shorthand (hseveral : 1 < cell.grid.count)
    (hgroup : (groupText kit.functions cell group []).perform s.context = (.ok text, c)) :
    ((composeRule kit cell selector ⟨"animation", [group], styles⟩).perform s).1 =
      .ok (Directive.declare "animation" (Animation.referShorthand cell.count text)) := by
  have hcompose : ∃ s', (composeRule kit cell selector ⟨"animation", [group], styles⟩).perform s =
      (.ok (propertyText kit (PropertyKind.ofName "animation") selector "animation"
        (propertyValue (PropertyKind.ofName "animation") cell ([text].filter (!·.isEmpty)))), s') :=
    ⟨_, (perform_composeRule_ok kit cell (show "animation" ≠ "@use" by decide)).2
      ⟨_, c, perform_groupTexts_group hgroup, rfl, rfl⟩⟩
  have hvalue : propertyValue (PropertyKind.ofName "animation") cell ([text].filter (!·.isEmpty)) =
      Animation.referAll .animation cell.count ([text].filter (!·.isEmpty)) := if_pos hseveral
  obtain ⟨s', hcompose⟩ := hcompose
  rw [hcompose, propertyText_animation kit selector (.inl rfl), hvalue, Animation.referAll_group]

/-- In a cell of several the shorthand of one group is declared with one word changed. Split again,
the value has the words of the text, of which the first that can be a name has the number of the
cell behind it; without such a word nothing is changed. The text may be any, also one that leaves
quotes and parentheses open. -/
theorem shorthand_changes_one_word (hseveral : 1 < cell.grid.count)
    (hgroup : (groupText kit.functions cell group []).perform s.context = (.ok text, c))
    (selector : Option String) (styles : List Token) :
    ∃ value, ((composeRule kit cell selector ⟨"animation", [group], styles⟩).perform s).1 =
        .ok (Directive.declare "animation" value) ∧
      ((∀ word ∈ splitWords text, Animation.isName word = false) ∧
          splitWords value = splitWords text ∨
        ∃ front name back, splitWords text = front ++ name :: back ∧
          (∀ word ∈ front, Animation.isName word = false) ∧ Animation.isName name = true ∧
          splitWords value = front ++ (name ++ "-" ++ toString cell.count) :: back) := by
  refine ⟨_, perform_composeRule_shorthand hseveral hgroup, ?_⟩
  rw [Animation.splitWords_referShorthand]
  refine (Animation.changeFirst_cases Animation.isName _ (splitWords text)).imp id ?_
  rintro ⟨front, name, back, hwords, hfront, hname, hchange⟩
  refine ⟨front, name, back, hwords, hfront, hname, hchange.trans ?_⟩
  -- A name is a word, so it is not empty.
  have hne : name ≠ "" := by
    have hpart := (stayWords_splitWords text).parts name (by simp [hwords])
    rintro rfl
    exact hpart.ne_nil rfl
  rw [Animation.refer_of_not_mem_keywords hne (Animation.not_mem_keywords_of_isName hname),
    ← Animation.cellName_eq]
  rfl

/-- Behind the name are a function with a blank and, as the last word, an open quote with a
parenthesis and blanks. -/
theorem shorthand_changes_one_word_of_open :
    ∃ value, ((composeRule .builtin ⟨1, 2, 1, 2, ⟨1, 2, 1⟩⟩ none
        ⟨"animation", [[.text " spin steps(2, end)\t'a (b "]], []⟩).perform (.ofSeed 1)).1 =
        .ok (Directive.declare "animation" value) ∧
      splitWords value = ["spin-2", "steps(2, end)", "'a (b"] := by
  have hgroup : (groupText Toolkit.builtin.functions ⟨1, 2, 1, 2, ⟨1, 2, 1⟩⟩
      [.text " spin steps(2, end)\t'a (b "] []).perform (Expansion.ofSeed 1).context =
        (.ok " spin steps(2, end)\t'a (b ", (Expansion.ofSeed 1).context) := rfl
  obtain ⟨value, hvalue, hwords⟩ := shorthand_changes_one_word (by decide) hgroup none []
  refine ⟨value, hvalue, ?_⟩
  have hsplit : splitWords " spin steps(2, end)\t'a (b " =
      ["spin", "steps(2, end)", "'a (b"] := by decide +kernel
  have hspin : Animation.isName "spin" = true := by decide +kernel
  rw [hsplit] at hwords
  obtain ⟨hnone, -⟩ | ⟨front, name, back, hfront, hbefore, -, hchanged⟩ := hwords
  · exact absurd (hspin.symm.trans (hnone "spin" (by simp))) (by decide)
  · cases front with
    | nil =>
      obtain ⟨rfl, rfl⟩ := List.cons.inj hfront
      exact hchanged.trans (by decide +kernel)
    | cons first rest =>
      obtain ⟨rfl, -⟩ := List.cons.inj hfront
      exact absurd (hspin.symm.trans (hbefore _ (by simp))) (by decide)

end Rules

end GridStyle
