import GridStyle.Proofs.TopLevel
import Mathlib.Algebra.GroupWithZero.Nat
import Mathlib.Data.List.Flatten
import Mathlib.Data.List.ModifyLast

/-!
# Words of Lists

Two texts are the same up to runs of white space if they have the same runs of other characters
(`EqUpToBlanks`). Where both are made of words that have equally many runs each, this is decided
word by word (`bare_eq_of_eqUpToBlanks`).

Where items are joined with `", "`, a comma belongs to the last word of the item in front of it. It
is a word of its own if there is no word in front, or if a blank is (`joinedWords`,
`splitWords_intercalate`).
-/

namespace GridStyle.Text

/-! ### Runs -/

/-- The runs of characters that are no blanks. -/
def runs (cs : List Char) : List (List Char) := (cutAt isBlank cs).filter (!·.isEmpty)

/-- The texts are the same, but for the lengths and the kinds of their runs of white space. -/
def EqUpToBlanks (a b : String) : Prop := plainWords a = plainWords b

instance (a b : String) : Decidable (EqUpToBlanks a b) :=
  inferInstanceAs (Decidable (plainWords a = plainWords b))

/-- The characters of a text that are no blanks. -/
def bare (text : String) : List Char := dropBlanks text.toList

theorem eqUpToBlanks_iff {a b : String} : EqUpToBlanks a b ↔ runs a.toList = runs b.toList :=
  (List.map_injective_iff.2 fun _ _ h => String.ofList_inj.1 h).eq_iff

/-- A blank ends a run. -/
theorem runs_append_blank {c : Char} (hc : isBlank c = true) (front back : List Char) :
    runs (front ++ c :: back) = runs front ++ runs back := by
  rw [runs, cutAt_separator hc, List.filter_append]
  rfl

/-- The runs have all characters that are no blanks. -/
theorem flatten_runs (cs : List Char) : (runs cs).flatten = dropBlanks cs := by
  rw [runs, List.flatten_filter_not_isEmpty]
  induction cs with
  | nil => rfl
  | cons c cs ih =>
    obtain ⟨part, parts, hcut⟩ := List.exists_cons_of_ne_nil (cutAt_ne_nil isBlank cs)
    rw [cutAt, hcut]
    rw [hcut, List.flatten_cons] at ih
    cases hc : isBlank c with
    | true => simp [dropBlanks, hc, ih]
    | false => simp [dropBlanks, hc, ih]

theorem ne_nil_of_mem_runs {cs part : List Char} (h : part ∈ runs cs) : part ≠ [] := by
  simpa using (List.mem_filter.1 h).2

/-- There is no run exactly if there are blanks only. -/
theorem runs_eq_nil_iff {cs : List Char} : runs cs = [] ↔ ∀ c ∈ cs, isBlank c = true := by
  have hflatten : runs cs = [] ↔ (runs cs).flatten = [] := by
    refine ⟨fun h => by rw [h]; rfl, fun h => List.eq_nil_iff_forall_not_mem.2 fun part hpart => ?_⟩
    exact ne_nil_of_mem_runs hpart (List.flatten_eq_nil_iff.1 h part hpart)
  rw [hflatten, flatten_runs, dropBlanks, List.filter_eq_nil_iff]
  simp

/-- Blanks at the ends do not matter. -/
theorem runs_trim (cs : List Char) : runs (trim cs) = runs cs := by
  obtain ⟨front, back, heq, hfront, hback⟩ := exists_eq_append_trim cs
  have hleft : ∀ {front : List Char}, (∀ c ∈ front, isBlank c = true) → ∀ core,
      runs (front ++ core) = runs core := by
    intro front hfront core
    induction front with
    | nil => rfl
    | cons c front ih =>
      rw [List.forall_mem_cons] at hfront
      rw [← ih hfront.2]
      exact runs_append_blank hfront.1 [] (front ++ core)
  have hright : ∀ core, runs (core ++ back) = runs core := by
    intro core
    cases back with
    | nil => rw [List.append_nil]
    | cons c back =>
      rw [List.forall_mem_cons] at hback
      rw [runs_append_blank hback.1, runs_eq_nil_iff.2 hback.2, List.append_nil]
  conv_rhs => rw [heq]
  rw [hleft hfront, hright]

theorem runs_trimText (text : String) : runs (trimText text).toList = runs text.toList := by
  rw [trimText, String.toList_ofList, runs_trim]

/-! ### The last element -/

section ModifyLast

variable {α β : Type}

/-- Changing the last element, seen through a function. -/
theorem map_modifyLast {f : α → α} {k : β → β} {g : α → β} (h : ∀ a, g (f a) = k (g a))
    (as : List α) : (as.modifyLast f).map g = (as.map g).modifyLast k := by
  cases as using List.reverseRecOn with
  | nil => rfl
  | append_singleton as a =>
    rw [List.modifyLast_concat, List.map_append, List.map_append, List.map_singleton,
      List.map_singleton, List.modifyLast_concat, h]

theorem modifyLast_injective {f : α → α} (hf : Function.Injective f) :
    Function.Injective (List.modifyLast f) := by
  intro as bs h
  cases as using List.reverseRecOn with
  | nil =>
    cases bs using List.reverseRecOn with
    | nil => rfl
    | append_singleton bs b =>
      rw [List.modifyLast_concat] at h
      exact absurd h.symm (List.append_ne_nil_of_right_ne_nil _ (List.cons_ne_nil _ _))
  | append_singleton as a =>
    cases bs using List.reverseRecOn with
    | nil =>
      rw [List.modifyLast_concat] at h
      exact absurd h (List.append_ne_nil_of_right_ne_nil _ (List.cons_ne_nil _ _))
    | append_singleton bs b =>
      rw [List.modifyLast_concat, List.modifyLast_concat] at h
      obtain ⟨rfl, hlast⟩ := List.append_inj' h rfl
      rw [hf (List.cons.inj hlast).1]

theorem length_modifyLast (f : α → α) (as : List α) :
    (as.modifyLast f).length = as.length := by
  cases as using List.reverseRecOn with
  | nil => rfl
  | append_singleton as a =>
    rw [List.modifyLast_concat, List.length_append, List.length_append]
    rfl

theorem modifyLast_ne_nil {f : α → α} {as : List α} (h : as ≠ []) : as.modifyLast f ≠ [] := by
  rw [Ne, ← List.length_eq_zero_iff, length_modifyLast, List.length_eq_zero_iff]
  exact h

theorem modifyLast_cons {f : α → α} (a : α) {as : List α} (h : as ≠ []) :
    (a :: as).modifyLast f = a :: as.modifyLast f :=
  List.modifyLast_append_of_right_ne_nil f [a] as h

end ModifyLast

/-! ### Words -/

/-- The text has an end, and this is no blank. -/
def EndsBare (text : String) : Prop :=
  ∃ front c, text.toList = front ++ [c] ∧ isBlank c = false

theorem endsBare_iff {text : String} :
    EndsBare text ↔ (text.toList.getLast?.any fun c => !isBlank c) = true := by
  rw [Option.any_eq_true]
  constructor
  · rintro ⟨front, c, hfront, hc⟩
    exact ⟨c, by rw [hfront, List.getLast?_concat], by rw [hc]; rfl⟩
  · rintro ⟨c, hlast, hc⟩
    obtain ⟨front, hfront⟩ := List.getLast?_eq_some_iff.1 hlast
    exact ⟨front, c, hfront, by simpa using hc⟩

instance : DecidablePred EndsBare := fun _ => decidable_of_iff _ endsBare_iff.symm

theorem EndsBare.ne_empty {text : String} (h : EndsBare text) : text ≠ "" := by
  rintro rfl
  obtain ⟨front, c, hfront, -⟩ := h
  rw [String.toList_empty] at hfront
  exact absurd hfront.symm (List.append_ne_nil_of_right_ne_nil _ (List.cons_ne_nil _ _))

theorem EndsBare.append {text suffix : String} (h : EndsBare text)
    (hsuffix : ∀ c ∈ suffix.toList, isBlank c = false) : EndsBare (text ++ suffix) := by
  obtain ⟨front, c, hfront, hc⟩ := h
  cases hlast : suffix.toList using List.reverseRecOn with
  | nil => exact ⟨front, c, by rw [String.toList_append, hlast, hfront, List.append_nil], hc⟩
  | append_singleton back d =>
    refine ⟨text.toList ++ back, d, by rw [String.toList_append, hlast, List.append_assoc], ?_⟩
    exact hsuffix d (by rw [hlast]; simp)

/-- Otherwise there is nothing, or a blank at the end. -/
theorem eq_nil_or_blank_of_not_endsBare {text : String} (h : ¬ EndsBare text) :
    text.toList = [] ∨ ∃ front b, text.toList = front ++ [b] ∧ isBlank b = true := by
  cases hlast : text.toList using List.reverseRecOn with
  | nil => exact .inl rfl
  | append_singleton front b =>
    refine .inr ⟨front, b, rfl, ?_⟩
    rw [← Bool.not_eq_false]
    exact fun hb => h ⟨front, b, hlast, hb⟩

/-- What is left of a trimmed text does not end with a blank. -/
theorem endsBare_ofList_trim {cs : List Char} (hne : trim cs ≠ []) :
    EndsBare (String.ofList (trim cs)) := by
  have hlast : ¬ isBlank ((trim cs).getLast hne) = true :=
    List.rdropWhile_last_not isBlank (cs.dropWhile isBlank) hne
  refine ⟨(trim cs).dropLast, (trim cs).getLast hne, ?_, by simpa using hlast⟩
  rw [String.toList_ofList, List.dropLast_append_getLast]

/-- A suffix without blanks belongs to the last run. -/
theorem EndsBare.runs_append {text suffix : String} (h : EndsBare text)
    (hsuffix : ∀ c ∈ suffix.toList, isBlank c = false) :
    runs (text ++ suffix).toList = (runs text.toList).modifyLast (· ++ suffix.toList) := by
  obtain ⟨front, c, hfront, hc⟩ := h
  have hback : ∀ b ∈ [c], isBlank b = false := List.forall_mem_singleton.2 hc
  obtain ⟨parts, last, hcut, hlast⟩ := exists_cutAt_append hback front
  obtain ⟨parts', last', hcut', hlast'⟩ :=
    exists_cutAt_append (List.forall_mem_cons.2 ⟨hc, hsuffix⟩) front
  obtain ⟨rfl, hsame⟩ := List.append_inj' (hcut.symm.trans hcut') rfl
  obtain rfl := (List.cons.inj hsame).1
  have hkeep : ∀ cs, [last ++ c :: cs].filter (!·.isEmpty) = [last ++ c :: cs] := by simp
  rw [String.toList_append, hfront, List.append_assoc, List.singleton_append, runs, runs, hlast,
    hlast', List.filter_append, List.filter_append, hkeep, hkeep, List.modifyLast_concat,
    List.append_assoc, List.singleton_append]

/-- A suffix without blanks is there when blanks are dropped. -/
theorem bare_append {suffix : String} (hsuffix : ∀ c ∈ suffix.toList, isBlank c = false)
    (text : String) : bare (text ++ suffix) = bare text ++ suffix.toList := by
  have hkeep : dropBlanks suffix.toList = suffix.toList :=
    List.filter_eq_self.2 fun c hc => by rw [hsuffix c hc]; rfl
  rw [bare, String.toList_append, dropBlanks, List.filter_append, ← dropBlanks, ← dropBlanks, hkeep,
    bare]

/-- The number of runs in a word. -/
def weight (word : String) : Nat := (runs word.toList).length

/-- A suffix without blanks is no run of its own. -/
theorem EndsBare.weight_append {text suffix : String} (h : EndsBare text)
    (hsuffix : ∀ c ∈ suffix.toList, isBlank c = false) : weight (text ++ suffix) = weight text := by
  rw [weight, h.runs_append hsuffix, length_modifyLast, weight]

/-- The runs of words that are written one after the other are the runs of each. -/
theorem runs_intercalate (words : List String) :
    runs (String.intercalate " " words).toList = words.flatMap fun w => runs w.toList := by
  induction words with
  | nil => rfl
  | cons word words ih =>
    cases words with
    | nil => simp
    | cons next words =>
      have htext : (String.intercalate " " (word :: next :: words)).toList =
          word.toList ++ ' ' :: (String.intercalate " " (next :: words)).toList := by
        rw [String.intercalate_cons_cons, String.toList_append, String.toList_append,
          List.append_assoc]
        rfl
      rw [htext, runs_append_blank (by decide), ih]
      rfl

/-- Texts of words that are the same up to white space have as many runs in all. -/
theorem sum_weight_of_eqUpToBlanks {as bs : List String}
    (h : EqUpToBlanks (String.intercalate " " as) (String.intercalate " " bs)) :
    (as.map weight).sum = (bs.map weight).sum := by
  rw [eqUpToBlanks_iff, runs_intercalate, runs_intercalate] at h
  have hlength := congrArg List.length h
  rwa [List.length_flatMap, List.length_flatMap] at hlength

/-- Two texts of words that have equally many runs each are the same up to white space only if the
words are. -/
theorem bare_eq_of_eqUpToBlanks {as bs : List String} (hlength : as.map weight = bs.map weight)
    (h : EqUpToBlanks (String.intercalate " " as) (String.intercalate " " bs)) :
    as.map bare = bs.map bare := by
  rw [eqUpToBlanks_iff, runs_intercalate, runs_intercalate] at h
  have hruns : as.map (fun w => runs w.toList) = bs.map fun w => runs w.toList :=
    List.eq_iff_flatten_eq.2 ⟨h, by rw [List.map_map, List.map_map]; exact hlength⟩
  have hflat := congrArg (List.map List.flatten) hruns
  simp only [List.map_map, Function.comp_def, flatten_runs] at hflat
  exact hflat

/-- A suffix of the last word is one of the whole. -/
theorem intercalate_modifyLast (suffix : String) {as : List String} (ha : as ≠ []) :
    String.intercalate " " (as.modifyLast (· ++ suffix)) =
      String.intercalate " " as ++ suffix := by
  obtain ⟨front, last, rfl⟩ := List.eq_nil_or_concat' as |>.resolve_left ha
  rw [List.modifyLast_concat]
  cases front with
  | nil => simp
  | cons first front =>
    rw [String.intercalate_append_of_ne_nil (List.cons_ne_nil _ _) (List.cons_ne_nil _ _),
      String.intercalate_append_of_ne_nil (List.cons_ne_nil _ _) (List.cons_ne_nil _ _),
      String.intercalate_singleton, String.intercalate_singleton, String.append_assoc,
      String.append_assoc, String.append_assoc]

/-- A text of words ends as its last word does. -/
theorem endsBare_intercalate {words : List String} (hne : words ≠ [])
    (hwords : ∀ word ∈ words, EndsBare word) : EndsBare (String.intercalate " " words) := by
  obtain ⟨front, last, rfl⟩ := List.eq_nil_or_concat' words |>.resolve_left hne
  rw [List.forall_mem_append, List.forall_mem_singleton] at hwords
  obtain ⟨cs, c, hcs, hc⟩ := hwords.2
  cases front with
  | nil =>
    rw [List.nil_append, String.intercalate_singleton]
    exact hwords.2
  | cons first front =>
    refine ⟨(String.intercalate " " (first :: front)).toList ++ ' ' :: cs, c, ?_, hc⟩
    rw [String.intercalate_append_of_ne_nil (List.cons_ne_nil _ _) (List.cons_ne_nil _ _),
      String.intercalate_singleton, String.toList_append, String.toList_append, hcs]
    simp

/-! ### Lists of texts -/

/-- A comma at the end of a word. -/
def comma (word : String) : String := word ++ ","

theorem not_isBlank_comma : ∀ c ∈ ",".toList, isBlank c = false := forall_mem_of_all (by decide)

theorem toList_comma (word : String) : (comma word).toList = word.toList ++ [','] := by
  rw [comma, String.toList_append]
  rfl

theorem endsBare_comma (word : String) : EndsBare (comma word) :=
  ⟨word.toList, ',', toList_comma word, by decide⟩

/-- Words with a comma behind them. It belongs to the last word, or is one if there is none. -/
def withComma (words : List String) : List String :=
  if words = [] then [","] else words.modifyLast comma

theorem withComma_concat (front : List String) (last : String) :
    withComma (front ++ [last]) = front ++ [comma last] := by
  rw [withComma, if_neg (List.append_ne_nil_of_right_ne_nil _ (List.cons_ne_nil _ _)),
    List.modifyLast_concat]

theorem withComma_ne_nil (words : List String) : withComma words ≠ [] := by
  rw [withComma]
  split
  · exact List.cons_ne_nil _ _
  · next hne => exact modifyLast_ne_nil hne

theorem intercalate_withComma (words : List String) :
    String.intercalate " " (withComma words) = String.intercalate " " words ++ "," := by
  rw [withComma]
  split
  · next hnil => rw [hnil]; rfl
  · next hne => exact intercalate_modifyLast "," hne

/-- The words of a list from those of its items: every item but the last has a comma behind it. -/
def listWords : List (List String) → List String
  | [] => []
  | [words] => words
  | words :: next :: rest => withComma words ++ listWords (next :: rest)

theorem listWords_ne_nil {items : List (List String)} (hne : items ≠ [])
    (hlast : ∀ words ∈ items.getLast?, words ≠ []) : listWords items ≠ [] := by
  cases items with
  | nil => exact absurd rfl hne
  | cons words rest =>
    cases rest with
    | nil => exact hlast words rfl
    | cons next rest => exact List.append_ne_nil_of_left_ne_nil (withComma_ne_nil words) _

/-- A list whose items are written word by word is written so itself, if the last one has words. -/
theorem intercalate_listWords {items : List (List String)}
    (hlast : ∀ words ∈ items.getLast?, words ≠ []) :
    String.intercalate ", " (items.map (String.intercalate " ")) =
      String.intercalate " " (listWords items) := by
  induction items with
  | nil => rfl
  | cons words rest ih =>
    cases rest with
    | nil => rw [List.map_singleton, String.intercalate_singleton, listWords]
    | cons next rest =>
      rw [List.getLast?_cons_cons] at hlast
      rw [List.map_cons, List.map_cons, String.intercalate_cons_cons, ← List.map_cons, ih hlast,
        listWords, String.intercalate_append_of_ne_nil (withComma_ne_nil words)
          (listWords_ne_nil (List.cons_ne_nil _ _) hlast), intercalate_withComma]
      simp only [String.append_assoc]
      rfl

/-! ### Splitting a list into words -/

theorem EndsBare.trim_ne_nil {text : String} (h : EndsBare text) : trim text.toList ≠ [] := by
  obtain ⟨front, c, hfront, hc⟩ := h
  rw [Ne, trim_eq_nil_iff]
  intro hblank
  rw [hblank c (by rw [hfront]; simp)] at hc
  exact absurd hc (by decide)

/-- Trimming a text that ends with no blank drops blanks in front only. -/
theorem exists_trim_concat {c : Char} (hc : isBlank c = false) (cs : List Char) :
    ∃ front, ∀ back, (∀ c ∈ back, isBlank c = false) →
      trim (cs ++ [c] ++ back) = front ++ [c] ++ back := by
  refine ⟨cs.dropWhile isBlank, fun back hback => ?_⟩
  have hdrop : (cs ++ [c] ++ back).dropWhile isBlank = cs.dropWhile isBlank ++ [c] ++ back := by
    rw [List.append_assoc, List.append_assoc, List.dropWhile_append]
    split
    · next hnil =>
      rw [List.isEmpty_iff.1 hnil, List.nil_append, List.singleton_append,
        List.dropWhile_cons_of_neg (by simp [hc])]
    · rfl
  rw [trim, hdrop]
  refine List.rdropWhile_eq_self_iff.2 fun hne => ?_
  cases back using List.reverseRecOn with
  | nil => simp [hc]
  | append_singleton back d => simp [hback d (by simp)]

theorem tidy_append (parts parts' : List (List Char)) :
    tidy (parts ++ parts') = tidy parts ++ tidy parts' := by
  rw [tidy, List.map_append, List.filter_append]
  rfl

/-- Nothing is left of parts exactly if the text has blanks only. -/
theorem tidy_cutTop_eq_nil_iff (s : Nesting) {cs : List Char} :
    tidy (cutTop atBlanks s cs) = [] ↔ ∀ c ∈ cs, isBlank c = true := by
  have htidy : ∀ parts, tidy parts = [] ↔ ∀ part ∈ parts, ∀ c ∈ part, isBlank c = true := by
    intro parts
    simp [tidy, List.filter_eq_nil_iff, trim_eq_nil_iff]
  rw [htidy]
  induction cs generalizing s with
  | nil => simp [cutTop]
  | cons c cs ih =>
    rw [cutTop, List.forall_mem_cons]
    split
    · next htop =>
      -- A separator is a blank.
      rw [Bool.and_eq_true] at htop
      rw [List.forall_mem_cons, and_iff_right fun c hc => absurd hc List.not_mem_nil,
        and_iff_right (show isBlank c = true from htop.2)]
      exact ih s
    · obtain ⟨part, parts, hcut⟩ := exists_cutTop_eq atBlanks (s.advance atBlanks.escapes c) cs
      have hrest := ih (s.advance atBlanks.escapes c)
      rw [hcut, List.forall_mem_cons] at hrest
      rw [hcut, List.modifyHead_cons, List.forall_mem_cons, List.forall_mem_cons, and_assoc]
      exact and_congr_right fun _ => hrest

theorem splitWords_eq_nil_iff {text : String} : splitWords text = [] ↔ trim text.toList = [] := by
  rw [splitWords, split_eq, List.map_eq_nil_iff, tidy_cutTop_eq_nil_iff, trim_eq_nil_iff]

/-- No word ends with a blank. -/
theorem endsBare_of_mem_splitWords {text word : String} (h : word ∈ splitWords text) :
    EndsBare word := by
  rw [splitWords, split_eq, List.mem_map] at h
  obtain ⟨cs, hcs, rfl⟩ := h
  rw [tidy, List.mem_filter, List.mem_map] at hcs
  obtain ⟨⟨part, -, rfl⟩, hne⟩ := hcs
  exact endsBare_ofList_trim (of_decide_eq_true hne)

/-- A character that is no blank belongs to the last part. -/
theorem cutTop_concat {c : Char} (hc : isBlank c = false) (s : Nesting) (cs : List Char) :
    cutTop atBlanks s (cs ++ [c]) = (cutTop atBlanks s cs).modifyLast (· ++ [c]) := by
  induction cs generalizing s with
  | nil =>
    have hnot : ¬ (s.atTop && atBlanks.separates c) = true := by simp [atBlanks, hc]
    exact (if_neg hnot).trans rfl
  | cons d cs ih =>
    rw [List.cons_append, cutTop, cutTop]
    split
    · obtain ⟨part, parts, hcut⟩ := exists_cutTop_eq atBlanks s cs
      rw [ih, modifyLast_cons _ (by rw [hcut]; exact List.cons_ne_nil _ _)]
    · obtain ⟨part, parts, hcut⟩ := exists_cutTop_eq atBlanks (s.advance atBlanks.escapes d) cs
      rw [ih, hcut]
      -- The first part can be the last one too.
      cases parts with
      | nil => rfl
      | cons next parts =>
        rw [modifyLast_cons _ (List.cons_ne_nil _ _), List.modifyHead_cons, List.modifyHead_cons,
          modifyLast_cons _ (List.cons_ne_nil _ _)]

/-- A blank behind a closed text ends its last part. -/
theorem cutTop_append_blank {b : Char} (hb : isBlank b = true) {s : Nesting} {cs : List Char}
    (hescaped : s.escaped = false) (hclosed : s.Closes false cs) (rest : List Char) :
    cutTop atBlanks s (cs ++ b :: rest) = cutTop atBlanks s cs ++ cutTop atBlanks {} rest := by
  induction cs generalizing s with
  | nil =>
    obtain rfl : s = {} := by
      rcases s with ⟨quote, depth, escaped⟩
      simp_all [Nesting.Closes, Nesting.outside]
    have htop : (({} : Nesting).atTop && atBlanks.separates b) = true := hb
    exact if_pos htop
  | cons c cs ih =>
    rw [List.cons_append, cutTop, cutTop]
    by_cases htop : (s.atTop && atBlanks.separates c) = true
    · have hsame : s.advance false c = s := by
        rw [Bool.and_eq_true] at htop
        rw [Nesting.eq_start_of_atTop htop.1,
          Nesting.advance_of_outside rfl (not_mem_marks_of_isBlank htop.2)]
      rw [if_pos htop, if_pos htop, ih hescaped (hsame ▸ hclosed.2), List.cons_append]
    · obtain ⟨part, parts, hcut⟩ := exists_cutTop_eq atBlanks (s.advance false c) cs
      rw [if_neg htop, if_neg htop]
      change List.modifyHead _ (cutTop atBlanks (s.advance false c) _) =
        List.modifyHead _ (cutTop atBlanks (s.advance false c) _) ++ _
      rw [ih (Nesting.escaped_advance hescaped c) hclosed.2, hcut]
      rfl

/-! ### Items -/

/-- A text that can be an item of a list: it is not empty and closes what it opens. -/
structure IsItem (text : String) : Prop where
  /-- There is something. -/
  ne_empty : text ≠ ""
  /-- Parentheses are balanced and quotes are closed. -/
  closed : Nesting.Closes false {} text.toList

instance (text : String) : Decidable (IsItem text) :=
  decidable_of_iff (text ≠ "" ∧ Nesting.Closes false {} text.toList)
    ⟨fun h => ⟨h.1, h.2⟩, fun h => ⟨h.1, h.2⟩⟩

/-- A comma behind the text is not behind a blank, unless there are blanks only. -/
def TakesComma (text : String) : Prop := trim text.toList = [] ∨ EndsBare text

instance : DecidablePred TakesComma := fun text =>
  inferInstanceAs (Decidable (trim text.toList = [] ∨ EndsBare text))

/-- A way to take a text for words: blanks have none, and no word ends with a blank. -/
structure IsWording (words : String → List String) : Prop where
  /-- There are words exactly if there are not only blanks. -/
  nil_iff : ∀ {text}, words text = [] ↔ trim text.toList = []
  /-- No word ends with a blank. -/
  endsBare : ∀ {text}, ∀ word ∈ words text, EndsBare word

theorem isWording_splitWords : IsWording splitWords :=
  ⟨splitWords_eq_nil_iff, fun _ => endsBare_of_mem_splitWords⟩

/-- The words of an item with a comma behind it. Behind a blank the comma is a word of its own. -/
def itemWords (words : String → List String) (item : String) : List String :=
  if EndsBare item then (words item).modifyLast comma else words item ++ [","]

/-- The words of items that are joined with commas. -/
def joinedWords (words : String → List String) : List String → List String
  | [] => []
  | [item] => words item
  | item :: next :: rest => itemWords words item ++ joinedWords words (next :: rest)

/-- Several items begin with two. -/
theorem exists_cons_cons {items : List String} (h : 1 < items.length) :
    ∃ item next rest, items = item :: next :: rest := by
  match items with
  | [] => exact absurd h (by simp)
  | [_] => exact absurd h (by simp)
  | item :: next :: rest => exact ⟨item, next, rest, rfl⟩

/-- A blank behind a closed text separates words. -/
theorem splitWords_append_blank {text : String} (hclosed : Nesting.Closes false {} text.toList)
    (rest : String) : splitWords (text ++ " " ++ rest) = splitWords text ++ splitWords rest := by
  have htext : (text ++ " " ++ rest).toList = text.toList ++ ' ' :: rest.toList := by simp
  rw [splitWords, splitWords, splitWords, split_eq, split_eq, split_eq, htext,
    cutTop_append_blank (by decide) rfl hclosed, tidy_append, List.map_append]

/-- A comma behind other text belongs to the last word. -/
theorem splitWords_comma_of_endsBare {item : String} (hends : EndsBare item) :
    splitWords (comma item) = (splitWords item).modifyLast comma := by
  obtain ⟨cs, c, hcs, hc⟩ := hends
  obtain ⟨front, last, hcut⟩ := List.eq_nil_or_concat' (cutTop atBlanks {} cs) |>.resolve_left
    fun hnil => by
      obtain ⟨part, parts, hcut⟩ := exists_cutTop_eq atBlanks {} cs
      exact absurd (hcut.symm.trans hnil) (List.cons_ne_nil _ _)
  -- The last part is trimmed to a word with the comma and without it.
  obtain ⟨word, hword⟩ := exists_trim_concat hc last
  have hlast := hword [] (by simp)
  have hlast' := hword [','] (forall_mem_of_all (by decide))
  rw [List.append_nil, List.append_nil] at hlast
  have htidy : tidy [last ++ [c]] = [word ++ [c]] := by simp [tidy, hlast]
  have htidy' : tidy [last ++ [c] ++ [',']] = [word ++ [c] ++ [',']] := by
    rw [tidy, List.map_singleton, hlast']
    simp
  rw [splitWords, splitWords, split_eq, split_eq, toList_comma, cutTop_concat (by decide), hcs,
    cutTop_concat hc, hcut, List.modifyLast_concat, List.modifyLast_concat, tidy_append,
    tidy_append, htidy, htidy', List.map_append, List.map_append, List.map_singleton,
    List.map_singleton, List.modifyLast_concat, comma, String.ofList_append]

/-- A comma that is not behind other text is a word of its own. -/
theorem splitWords_comma_of_not_endsBare {item : String}
    (hclosed : Nesting.Closes false {} item.toList) (hends : ¬ EndsBare item) :
    splitWords (comma item) = splitWords item ++ [","] := by
  -- The last part is empty, so only the comma belongs to it.
  obtain ⟨parts, hcut⟩ : ∃ parts, cutTop atBlanks {} item.toList = parts ++ [[]] := by
    obtain hnil | ⟨cs, b, hcs, hb⟩ := eq_nil_or_blank_of_not_endsBare hends
    · exact ⟨[], by rw [hnil]; rfl⟩
    · have hfront : Nesting.Closes false {} cs := by
        rw [hcs] at hclosed
        refine (Nesting.closes_append_iff_of_right ?_ _ _).1 hclosed
        simpa using not_mem_marks_of_isBlank hb
      exact ⟨_, hcs ▸ cutTop_append_blank hb rfl hfront []⟩
  have hnil : tidy [[]] = [] := by decide
  have hone : tidy [[] ++ [',']] = [[',']] := by decide
  rw [splitWords, splitWords, split_eq, split_eq, toList_comma, cutTop_concat (by decide), hcut,
    List.modifyLast_concat, tidy_append, tidy_append, hnil, hone, List.append_nil,
    List.map_append]
  rfl

/-- The words of an item with a comma behind it. -/
theorem splitWords_comma {item : String} (hclosed : Nesting.Closes false {} item.toList) :
    splitWords (comma item) = itemWords splitWords item := by
  rw [itemWords]
  split
  · next hends => exact splitWords_comma_of_endsBare hends
  · next hends => exact splitWords_comma_of_not_endsBare hclosed hends

/-- The words of a list. -/
theorem splitWords_intercalate {items : List String} (hitems : ∀ item ∈ items, IsItem item) :
    splitWords (String.intercalate ", " items) = joinedWords splitWords items := by
  induction items with
  | nil => rfl
  | cons item rest ih =>
    rw [List.forall_mem_cons] at hitems
    cases rest with
    | nil => rw [String.intercalate_singleton, joinedWords]
    | cons next rest =>
      have hclosed : Nesting.Closes false {} (comma item).toList := by
        rw [toList_comma]
        refine (Nesting.closes_append_iff_of_right ?_ _ _).2 hitems.1.closed
        exact forall_mem_of_all (by decide)
      have hjoin : comma item ++ " " = item ++ ", " := String.append_assoc
      rw [String.intercalate_cons_cons, ← hjoin, splitWords_append_blank hclosed,
        splitWords_comma hitems.1.closed, ih hitems.2, joinedWords]

/-! ### Commas and blanks -/

namespace IsWording

variable {words : String → List String} (h : IsWording words)

include h

theorem endsBare_map (items : List String) :
    ∀ list ∈ items.map words, ∀ word ∈ list, EndsBare word := by
  rw [List.forall_mem_map]
  exact fun item _ => h.endsBare

theorem joinedWords_ne_nil {items : List String} (hseveral : 1 < items.length) :
    joinedWords words items ≠ [] := by
  obtain ⟨item, next, rest, rfl⟩ := exists_cons_cons hseveral
  refine List.append_ne_nil_of_left_ne_nil ?_ _
  rw [itemWords]
  split
  · next hends => exact modifyLast_ne_nil (mt h.nil_iff.1 hends.trim_ne_nil)
  · exact List.append_ne_nil_of_right_ne_nil _ (List.cons_ne_nil _ _)

theorem endsBare_itemWords {item : String} : ∀ word ∈ itemWords words item, EndsBare word := by
  rw [itemWords]
  split
  · cases hwords : words item using List.reverseRecOn with
    | nil => exact fun word hmem => absurd hmem List.not_mem_nil
    | append_singleton front last =>
      have hends : ∀ word ∈ words item, EndsBare word := h.endsBare
      rw [hwords, List.forall_mem_append] at hends
      rw [List.modifyLast_concat, List.forall_mem_append, List.forall_mem_singleton]
      exact ⟨hends.1, endsBare_comma last⟩
  · rw [List.forall_mem_append, List.forall_mem_singleton]
    exact ⟨h.endsBare, endsBare_comma ""⟩

theorem endsBare_joinedWords (items : List String) :
    ∀ word ∈ joinedWords words items, EndsBare word := by
  induction items with
  | nil => exact fun word hmem => absurd hmem List.not_mem_nil
  | cons item rest ih =>
    cases rest with
    | nil => exact h.endsBare
    | cons next rest => exact List.forall_mem_append.2 ⟨h.endsBare_itemWords, ih⟩

/-- An item that takes a comma has it at its last word. -/
theorem itemWords_eq_withComma {item : String} (hitem : TakesComma item) :
    itemWords words item = withComma (words item) := by
  obtain hnil | hends := hitem
  · rw [itemWords, if_neg fun hends => hends.trim_ne_nil hnil, h.nil_iff.2 hnil]
    rfl
  · have hne : words item ≠ [] := fun hnil => hends.trim_ne_nil (h.nil_iff.1 hnil)
    rw [itemWords, if_pos hends, withComma, if_neg hne]

/-- Where every item but the last takes a comma the words are those of the items with commas. -/
theorem joinedWords_eq_listWords {items : List String}
    (hitems : ∀ item ∈ items.dropLast, TakesComma item) :
    joinedWords words items = listWords (items.map words) := by
  induction items with
  | nil => rfl
  | cons item rest ih =>
    cases rest with
    | nil => rfl
    | cons next rest =>
      rw [List.dropLast_cons_of_ne_nil (List.cons_ne_nil next rest), List.forall_mem_cons] at hitems
      rw [joinedWords, h.itemWords_eq_withComma hitems.1, ih hitems.2]
      rfl

/-- Every other item brings one more run, which is its comma. -/
theorem sum_weight_joinedWords (items : List String) :
    ((joinedWords words items).map weight).sum =
      ((listWords (items.map words)).map weight).sum +
        items.dropLast.countP fun item => !decide (TakesComma item) := by
  induction items with
  | nil => rfl
  | cons item rest ih =>
    cases rest with
    | nil => rfl
    | cons next rest =>
      have hitem : ((itemWords words item).map weight).sum =
          ((withComma (words item)).map weight).sum + if TakesComma item then 0 else 1 := by
        split
        · next htakes => rw [h.itemWords_eq_withComma htakes, Nat.add_zero]
        · next htakes =>
          rw [TakesComma, not_or] at htakes
          have hne : words item ≠ [] := fun hnil => htakes.1 (h.nil_iff.1 hnil)
          obtain ⟨front, last, hlast⟩ := List.eq_nil_or_concat' (words item) |>.resolve_left hne
          have hends : EndsBare last := h.endsBare last (by rw [hlast]; simp)
          have hsame : weight (comma last) = weight last := hends.weight_append not_isBlank_comma
          have hone : weight "," = 1 := by decide
          rw [itemWords, if_neg htakes.2, hlast, withComma_concat]
          simp only [List.map_append, List.sum_append, List.map_singleton, List.sum_singleton,
            hsame, hone]
      have hlist : listWords ((item :: next :: rest).map words) =
          withComma (words item) ++ listWords ((next :: rest).map words) := rfl
      rw [joinedWords, hlist, List.dropLast_cons_of_ne_nil (List.cons_ne_nil next rest),
        List.countP_cons, List.map_append, List.map_append, List.sum_append, List.sum_append, ih,
        hitem]
      by_cases htakes : TakesComma item
      · simp [htakes]
        omega
      · simp [htakes]
        omega

end IsWording

/-- A text as one word, if there is something. -/
def oneWord (text : String) : List String := if text = "" then [] else [text]

theorem withComma_oneWord (text : String) : withComma (oneWord text) = [comma text] := by
  rw [oneWord]
  split
  · next hempty => rw [hempty]; rfl
  · rfl

/-- A word in front of others of a list has the comma. -/
theorem listWords_oneWord (text : String) (words : List String) (rest : List (List String)) :
    listWords (oneWord text :: words :: rest) = comma text :: listWords (words :: rest) := by
  rw [listWords, withComma_oneWord]
  rfl

theorem intercalate_oneWord (text : String) : String.intercalate " " (oneWord text) = text := by
  rw [oneWord]
  split
  · next hempty => rw [hempty]; rfl
  · exact String.intercalate_singleton

/-- A text as one word, without the blanks at its ends. -/
def trimmedWord (text : String) : List String := oneWord (trimText text)

theorem trimText_eq_empty_iff {text : String} : trimText text = "" ↔ trim text.toList = [] := by
  rw [trimText, ← String.toList_eq_nil_iff, String.toList_ofList]

theorem isWording_trimmedWord : IsWording trimmedWord := by
  refine ⟨fun {text} => ?_, fun {text} word hword => ?_⟩
  · rw [trimmedWord, oneWord, ← trimText_eq_empty_iff]
    split
    · next hempty => exact iff_of_true rfl hempty
    · next hne => exact iff_of_false (List.cons_ne_nil _ _) hne
  · rw [trimmedWord, oneWord] at hword
    split at hword
    · exact absurd hword List.not_mem_nil
    · next hne =>
      rw [List.mem_singleton.1 hword]
      exact endsBare_ofList_trim (mt trimText_eq_empty_iff.2 hne)

theorem runs_trimmedWord (text : String) :
    (trimmedWord text).flatMap (fun w => runs w.toList) = runs text.toList := by
  rw [← runs_intercalate, trimmedWord, intercalate_oneWord, runs_trimText]

/-- With a comma behind it an item has the runs of its trimmed word with the comma. -/
theorem runs_comma (item : String) : runs (item ++ ",").toList =
    (itemWords trimmedWord item).flatMap fun w => runs w.toList := by
  rw [itemWords]
  split
  · next hends =>
    have hword : EndsBare (trimText item) := endsBare_ofList_trim hends.trim_ne_nil
    have hmodify : [trimText item].modifyLast comma = [trimText item ++ ","] := rfl
    rw [trimmedWord, oneWord, if_neg hword.ne_empty, hmodify, List.flatMap_singleton,
      hends.runs_append not_isBlank_comma, hword.runs_append not_isBlank_comma, runs_trimText]
  · next hends =>
    have hone : runs ",".toList = [[',']] := by decide
    rw [List.flatMap_append, runs_trimmedWord, List.flatMap_singleton, hone, String.toList_append]
    obtain hnil | ⟨front, b, hfront, hb⟩ := eq_nil_or_blank_of_not_endsBare hends
    · rw [hnil]
      exact hone
    · rw [hfront, List.append_assoc, List.singleton_append, runs_append_blank hb,
        runs_append_blank hb]
      rw [hone, show runs [] = [] from rfl, List.append_nil]

/-- Items that are joined with commas have the runs of their trimmed words. -/
theorem runs_joined (items : List String) :
    runs (String.intercalate ", " items).toList =
      runs (String.intercalate " " (joinedWords trimmedWord items)).toList := by
  rw [runs_intercalate]
  induction items with
  | nil => rfl
  | cons item rest ih =>
    cases rest with
    | nil => rw [String.intercalate_singleton, joinedWords, runs_trimmedWord]
    | cons next rest =>
      have htext : (String.intercalate ", " (item :: next :: rest)).toList =
          (item ++ ",").toList ++ ' ' :: (String.intercalate ", " (next :: rest)).toList := by
        rw [String.intercalate_cons_cons]
        simp
      rw [htext, runs_append_blank (by decide), runs_comma, ih, joinedWords, List.flatMap_append]

end GridStyle.Text
