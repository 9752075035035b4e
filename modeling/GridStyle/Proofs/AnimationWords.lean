import GridStyle.Proofs.AnimationNames
import GridStyle.Proofs.Words

/-!
# Words of Animations

A reference to the keyframes of a cell has the number of the cell behind a name. In a list of names
that are written as one text only the last name gets it, and in a list of shorthands only the first
word that can be a name, where a comma belongs to the word in front of it.

So changing the words of such a text changes what changing the items one by one does exactly if no
other item has a name to be changed (`Animation.NamesAgree`, `Animation.ShorthandsAgree`), and
otherwise the words differ in more than blanks (`Animation.namesAgree_iff`,
`Animation.shorthandsAgree_iff`).
-/

namespace GridStyle

open Text

namespace Decimal

/-- A comma is never a part of a number. -/
theorem comma_not_mem_spanNumber (cs : List Char) : ',' ∉ (spanNumber cs).1 := by
  induction cs with
  | nil => exact List.not_mem_nil
  | cons c cs ih =>
    rw [spanNumber]
    split
    · next hgoes =>
      rw [List.mem_cons, not_or]
      refine ⟨?_, ih⟩
      rintro rfl
      simp at hgoes
    · exact List.not_mem_nil

/-- A comma belongs to the unit. -/
theorem comma_mem_splitQuantity {cs : List Char} (h : ',' ∈ cs) : ',' ∈ (splitQuantity cs).2 := by
  cases cs with
  | nil => exact h
  | cons c cs =>
    rw [splitQuantity]
    split
    · next hsign =>
      have hne : ',' ≠ c := by
        rintro rfl
        simp at hsign
      have hrest := (List.mem_cons.1 h).resolve_left hne
      rw [← spanNumber_append cs, List.mem_append] at hrest
      exact hrest.resolve_left (comma_not_mem_spanNumber cs)
    · exact h

end Decimal

namespace Animation

/-! ### Names -/

/-- What a name of a cell ends with. -/
def cellSuffix (count : Nat) : String := "-" ++ toString count

theorem cellName_eq (name : String) (count : Nat) :
    cellName name count = name ++ cellSuffix count :=
  String.append_assoc

theorem toList_cellSuffix (count : Nat) :
    (cellSuffix count).toList = '-' :: (toString count).toList := by
  rw [cellSuffix, String.toList_append]
  rfl

theorem not_isBlank_of_mem_cellSuffix (count : Nat) :
    ∀ c ∈ (cellSuffix count).toList, isBlank c = false := by
  intro c hc
  rw [toList_cellSuffix, List.mem_cons] at hc
  rcases hc with rfl | hc
  · decide
  · have hdigit := isDigit_of_mem_toString c hc
    rw [Char.isDigit, Bool.and_eq_true, decide_eq_true_eq, decide_eq_true_eq] at hdigit
    have hlow : 48 ≤ c.toNat := hdigit.1
    have hhigh : c.toNat ≤ 57 := hdigit.2
    exact isBlank_eq_false (by omega) (by omega)

/-- No keyword has a comma. -/
theorem not_mem_keywords_of_comma {text : String} (h : ',' ∈ text.toList) : text ∉ keywords := by
  have hkeywords : ∀ keyword ∈ keywords, ',' ∉ keyword.toList := by decide
  exact fun hmem => hkeywords text hmem h

theorem not_mem_keywords_of_isName {word : String} (h : isName word = true) :
    word ∉ keywords := by
  intro hmem
  rw [isName, if_pos (.inl hmem)] at h
  exact absurd h (by decide)

theorem isName_eq_false_of_function {word : String} (h : '(' ∈ word.toList) :
    isName word = false := by
  rw [isName, if_pos (.inr h)]

/-- With a comma behind it every word is a name, unless it calls a function. -/
theorem isName_comma {word : String} (h : '(' ∉ word.toList) : isName (comma word) = true := by
  have hmem : ',' ∈ (comma word).toList := by simp [toList_comma]
  have hfunction : '(' ∉ (comma word).toList := by simpa [toList_comma] using h
  rw [isName, if_neg (not_or.2 ⟨not_mem_keywords_of_comma hmem, hfunction⟩)]
  split
  · next quantity hread =>
    -- Were it a quantity, its unit would have the comma.
    have hunit : ',' ∈ quantity.unit.toList := by
      rw [Decimal.readQuantity, Option.map_eq_some_iff] at hread
      obtain ⟨value, -, rfl⟩ := hread
      rw [String.toList_ofList]
      exact Decimal.comma_mem_splitQuantity ((mem_trim_iff (by decide)).2 hmem)
    have hunits : ∀ unit ∈ timeUnits, ',' ∉ unit.toList := by decide
    exact decide_eq_true fun hin => hunits _ hin hunit
  · rfl

theorem refer_of_mem_keywords {name : String} (h : name ∈ keywords) (count : Nat) :
    refer name count = name := by
  rw [refer, if_pos (.inr h)]

theorem refer_of_not_mem_keywords {name : String} (hne : name ≠ "") (h : name ∉ keywords)
    (count : Nat) : refer name count = name ++ cellSuffix count := by
  have hempty : ¬ name.isEmpty = true := fun hempty => hne (String.isEmpty_iff.1 hempty)
  rw [refer, if_neg (not_or.2 ⟨hempty, h⟩), cellName_eq]

section Words

variable (count : Nat)

/-- A reference to a name has characters that the name has not. -/
theorem bare_refer {name : String} (hne : name ≠ "") (h : name ∉ keywords) :
    bare (refer name count) = bare name ++ (cellSuffix count).toList := by
  rw [refer_of_not_mem_keywords hne h, bare_append (not_isBlank_of_mem_cellSuffix count)]

theorem bare_refer_ne {name : String} (hne : name ≠ "") (h : name ∉ keywords) :
    bare (refer name count) ≠ bare name := by
  intro heq
  have hlength := congrArg List.length heq
  rw [bare_refer count hne h, List.length_append, toList_cellSuffix, List.length_cons] at hlength
  omega

theorem endsBare_refer {name : String} (h : EndsBare name) : EndsBare (refer name count) := by
  rw [refer]
  split
  · exact h
  · rw [cellName_eq]
    exact h.append (not_isBlank_of_mem_cellSuffix count)

theorem bare_comma (word : String) : bare (comma word) = bare word ++ [','] :=
  bare_append not_isBlank_comma word

theorem weight_refer {name : String} (h : EndsBare name) :
    weight (refer name count) = weight name := by
  rw [refer]
  split
  · rfl
  · rw [cellName_eq]
    exact h.weight_append (not_isBlank_of_mem_cellSuffix count)

end Words

/-! ### Changing one word -/

section ChangeFirst

variable {α β : Type} {p : α → Bool} {f : α → α}

theorem changeFirst_of_any_eq_false {as : List α} (h : as.any p = false) :
    changeFirst p f as = as := by
  induction as with
  | nil => rfl
  | cons a as ih =>
    rw [List.any_cons, Bool.or_eq_false_iff] at h
    rw [changeFirst, h.1, if_neg Bool.false_ne_true, ih h.2]

/-- The first element in a list of two parts is in the first part if there is one. -/
theorem changeFirst_append (as bs : List α) :
    changeFirst p f (as ++ bs) =
      if as.any p then changeFirst p f as ++ bs else as ++ changeFirst p f bs := by
  induction as with
  | nil => rfl
  | cons a as ih =>
    rw [List.cons_append, changeFirst, changeFirst, ih, List.any_cons]
    cases p a <;> cases as.any p <;> rfl

theorem map_changeFirst {g : α → β} {as : List α} (h : ∀ a ∈ as, g (f a) = g a) :
    (changeFirst p f as).map g = as.map g := by
  induction as with
  | nil => rfl
  | cons a as ih =>
    rw [List.forall_mem_cons] at h
    rw [changeFirst]
    split
    · rw [List.map_cons, List.map_cons, h.1]
    · rw [List.map_cons, List.map_cons, ih h.2]

theorem forall_changeFirst {q : α → Prop} {as : List α} (h : ∀ a ∈ as, q a)
    (hf : ∀ a, q a → q (f a)) : ∀ a ∈ changeFirst p f as, q a := by
  induction as with
  | nil => exact h
  | cons a as ih =>
    rw [List.forall_mem_cons] at h
    rw [changeFirst]
    split
    · exact List.forall_mem_cons.2 ⟨hf a h.1, h.2⟩
    · exact List.forall_mem_cons.2 ⟨h.1, ih h.2⟩

end ChangeFirst

section Changes

variable {count : Nat}

/-- The names of a shorthand's words refer to the keyframes of the cell. -/
def referWords (count : Nat) (words : List String) : List String :=
  changeFirst isName (fun name => refer name count) words

theorem referShorthand_eq (count : Nat) (text : String) :
    referShorthand count text = String.intercalate " " (referWords count (splitWords text)) :=
  rfl

/-- A change of words keeps the number of runs in each of them, and no word ends with a blank. -/
structure KeepsRuns (change : List String → List String) : Prop where
  /-- The words have as many runs. -/
  weight : ∀ {words}, (∀ word ∈ words, EndsBare word) →
    (change words).map Text.weight = words.map Text.weight
  /-- No word ends with a blank. -/
  endsBare : ∀ {words}, (∀ word ∈ words, EndsBare word) → ∀ word ∈ change words, EndsBare word

theorem keepsRuns_referWords (count : Nat) : KeepsRuns (referWords count) :=
  ⟨fun h => map_changeFirst fun word hmem => weight_refer count (h word hmem),
    fun h => forall_changeFirst h fun _ => endsBare_refer count⟩

theorem keepsRuns_map_refer (count : Nat) :
    KeepsRuns fun words => words.map fun name => refer name count := by
  refine ⟨fun {words} h => ?_, fun {words} h => ?_⟩
  · rw [List.map_map]
    exact List.map_congr_left fun word hmem => weight_refer count (h word hmem)
  · rw [List.forall_mem_map]
    exact fun word hmem => endsBare_refer count (h word hmem)

/-- A suffix without blanks at the last word. -/
theorem keepsRuns_modifyLast {suffix : String} (hsuffix : ∀ c ∈ suffix.toList, isBlank c = false) :
    KeepsRuns (List.modifyLast (· ++ suffix)) := by
  have hboth : ∀ {words : List String}, (∀ word ∈ words, EndsBare word) →
      (words.modifyLast (· ++ suffix)).map Text.weight = words.map Text.weight ∧
        ∀ word ∈ words.modifyLast (· ++ suffix), EndsBare word := by
    intro words h
    cases words using List.reverseRecOn with
    | nil => exact ⟨rfl, h⟩
    | append_singleton front last =>
      rw [List.forall_mem_append, List.forall_mem_singleton] at h
      rw [List.modifyLast_concat, List.map_append, List.map_append, List.map_singleton,
        List.map_singleton, h.2.weight_append hsuffix, List.forall_mem_append,
        List.forall_mem_singleton]
      exact ⟨rfl, h.1, h.2.append hsuffix⟩
  exact ⟨fun h => (hboth h).1, fun h => (hboth h).2⟩

theorem KeepsRuns.length_eq {change : List String → List String} (h : KeepsRuns change)
    {words : List String} (hwords : ∀ word ∈ words, EndsBare word) :
    (change words).length = words.length := by
  have hlength := congrArg List.length (h.weight hwords)
  rwa [List.length_map, List.length_map] at hlength

theorem KeepsRuns.eq_nil_iff {change : List String → List String} (h : KeepsRuns change)
    {words : List String} (hwords : ∀ word ∈ words, EndsBare word) :
    change words = [] ↔ words = [] := by
  rw [← List.length_eq_zero_iff, h.length_eq hwords, List.length_eq_zero_iff]

theorem endsBare_withComma {words : List String} (hwords : ∀ word ∈ words, EndsBare word) :
    ∀ word ∈ withComma words, EndsBare word := by
  rw [withComma]
  split
  · rw [List.forall_mem_singleton]
    exact endsBare_comma ""
  · exact (keepsRuns_modifyLast not_isBlank_comma).endsBare hwords

theorem endsBare_listWords {items : List (List String)}
    (hitems : ∀ words ∈ items, ∀ word ∈ words, EndsBare word) :
    ∀ word ∈ listWords items, EndsBare word := by
  induction items with
  | nil => exact fun word hmem => absurd hmem List.not_mem_nil
  | cons words rest ih =>
    rw [List.forall_mem_cons] at hitems
    cases rest with
    | nil => exact hitems.1
    | cons next rest =>
      exact List.forall_mem_append.2 ⟨endsBare_withComma hitems.1, ih hitems.2⟩

/-- The words of a list have as many runs whatever is changed in the items. -/
theorem KeepsRuns.map_weight_listWords {change : List String → List String}
    (h : KeepsRuns change) {items : List (List String)}
    (hitems : ∀ words ∈ items, ∀ word ∈ words, EndsBare word) :
    (listWords (items.map change)).map Text.weight = (listWords items).map Text.weight := by
  have hsuffix := keepsRuns_modifyLast not_isBlank_comma
  induction items with
  | nil => rfl
  | cons words rest ih =>
    rw [List.forall_mem_cons] at hitems
    cases rest with
    | nil => exact h.weight hitems.1
    | cons next rest =>
      have hfirst : (withComma (change words)).map Text.weight =
          (withComma words).map Text.weight := by
        by_cases hnil : words = []
        · rw [(h.eq_nil_iff hitems.1).2 hnil, hnil]
        · rw [withComma, withComma, if_neg hnil, if_neg (mt (h.eq_nil_iff hitems.1).1 hnil)]
          exact (hsuffix.weight (h.endsBare hitems.1)).trans
            ((h.weight hitems.1).trans (hsuffix.weight hitems.1).symm)
      change List.map Text.weight (withComma (change words) ++
        listWords ((next :: rest).map change)) = _
      rw [listWords, List.map_append, List.map_append, hfirst, ih hitems.2]

/-- What is changed in words can be seen where their blanks are dropped. -/
theorem any_isName_of_bare_eq {words : List String} (hwords : ∀ word ∈ words, EndsBare word)
    (h : (referWords count words).map bare = words.map bare) : words.any isName = false := by
  induction words with
  | nil => rfl
  | cons word words ih =>
    rw [List.forall_mem_cons] at hwords
    rw [referWords, changeFirst] at h
    split at h
    · next hname =>
      exact absurd (List.cons.inj h).1
        (bare_refer_ne count hwords.1.ne_empty (not_mem_keywords_of_isName hname))
    · next hname =>
      rw [List.any_cons, ih hwords.2 (List.cons.inj h).2, Bool.or_false]
      simpa using hname

/-- What is changed in the items of a list can be seen where blanks are dropped. -/
theorem any_isName_of_listWords {items : List (List String)}
    (hitems : ∀ words ∈ items, ∀ word ∈ words, EndsBare word)
    (h : (listWords items).map bare = (listWords (items.map (referWords count))).map bare) :
    ∀ words ∈ items, words.any isName = false := by
  induction items with
  | nil => exact fun words hmem => absurd hmem List.not_mem_nil
  | cons words rest ih =>
    rw [List.forall_mem_cons] at hitems ⊢
    cases rest with
    | nil => exact ⟨any_isName_of_bare_eq hitems.1 h.symm, by simp⟩
    | cons next rest =>
      change List.map bare (withComma words ++ listWords (next :: rest)) = List.map bare
        (withComma (referWords count words) ++
          listWords ((next :: rest).map (referWords count))) at h
      have hnil := (keepsRuns_referWords count).eq_nil_iff hitems.1
      have hlength := (keepsRuns_referWords count).length_eq hitems.1
      rw [List.map_append, List.map_append] at h
      by_cases hwords : words = []
      · rw [hnil.2 hwords, hwords] at h
        exact ⟨by rw [hwords]; rfl, ih hitems.2 (List.append_cancel_left h)⟩
      · rw [withComma, withComma, if_neg hwords, if_neg (mt hnil.1 hwords)] at h
        obtain ⟨hfirst, hrest⟩ := List.append_inj h (by simp [length_modifyLast, hlength])
        -- The comma can be taken away again.
        rw [map_modifyLast (k := (· ++ [','])) bare_comma,
          map_modifyLast (k := (· ++ [','])) bare_comma] at hfirst
        have hsame := modifyLast_injective (fun _ _ => List.append_cancel_right) hfirst
        exact ⟨any_isName_of_bare_eq hitems.1 hsame.symm, ih hitems.2 hrest⟩

/-! ### Lists that agree -/

/-- In one text only the last name is changed, so the names in front of it have to be keywords. -/
def NamesAgree (names : List String) : Prop :=
  (∀ name ∈ names.dropLast, name = "" ∨ name ∈ keywords) ∧
    ∀ name ∈ names.getLast?, name ∉ keywords

/-- In one text of several shorthands only the first word is changed that can be a name, where a
word in front of a comma is one with the comma, unless it calls a function. So the items in front of
that word have to end with functions, it must not be in front of a comma itself, and the items
behind it have to be without names. -/
def ShorthandsAgree : List (List String) → Prop
  | words :: next :: rest =>
    if words.dropLast.any isName then ∀ other ∈ next :: rest, other.any isName = false
    else (∃ word ∈ words.getLast?, '(' ∈ word.toList) ∧ ShorthandsAgree (next :: rest)
  | _ => True

instance : DecidablePred NamesAgree := fun names =>
  inferInstanceAs (Decidable (_ ∧ ∀ name ∈ names.getLast?, name ∉ keywords))

instance decidableShorthandsAgree : DecidablePred ShorthandsAgree
  | [] => inferInstanceAs (Decidable True)
  | [_] => inferInstanceAs (Decidable True)
  | words :: next :: rest =>
    have := decidableShorthandsAgree (next :: rest)
    inferInstanceAs (Decidable (if words.dropLast.any isName then
        ∀ other ∈ next :: rest, other.any isName = false
      else (∃ word ∈ words.getLast?, '(' ∈ word.toList) ∧ ShorthandsAgree (next :: rest)))

/-- A comma in front of the suffix is not one behind it. -/
theorem bare_refer_comma_ne {word : String} (hne : word ≠ "") :
    bare (refer (comma word) count) ≠
      bare (comma (if isName word then refer word count else word)) := by
  have hmem : ',' ∈ (comma word).toList := by simp [toList_comma]
  have hcomma : comma word ≠ "" := fun h => by simp [h] at hmem
  rw [bare_refer count hcomma (not_mem_keywords_of_comma hmem), bare_comma, bare_comma,
    toList_cellSuffix]
  split
  · next hname =>
    rw [bare_refer count hne (not_mem_keywords_of_isName hname), toList_cellSuffix,
      List.append_assoc, List.append_assoc, Ne, List.append_cancel_left_eq]
    simp
  · intro heq
    have hlength := congrArg List.length heq
    rw [List.length_append, List.length_cons] at hlength
    omega

/-- The words in front of the last one have a name, which both routes change. So they agree if no
item behind it has a name. -/
theorem shorthandsAgree_of_name (count : Nat) {front : List String}
    (hfront : front.any isName = true) (last : String) {items : List (List String)}
    (hitems : ∀ words ∈ items, ∀ word ∈ words, EndsBare word) :
    ((referWords count (front ++ comma last :: listWords items)).map bare =
        (withComma (referWords count (front ++ [last])) ++
          listWords (items.map (referWords count))).map bare →
      ∀ other ∈ items, other.any isName = false) ∧
    ((∀ other ∈ items, other.any isName = false) →
      referWords count (front ++ comma last :: listWords items) =
        withComma (referWords count (front ++ [last])) ++
          listWords (items.map (referWords count))) := by
  have hchange : ∀ tail, referWords count (front ++ tail) = referWords count front ++ tail :=
    fun tail => by rw [referWords, changeFirst_append, if_pos hfront, referWords]
  rw [hchange, hchange, withComma_concat, List.append_assoc, List.singleton_append]
  constructor
  · intro h
    simp only [List.map_append, List.map_cons, List.append_cancel_left_eq] at h
    exact any_isName_of_listWords hitems (List.cons.inj h).2
  · intro hnone
    have hsame : items.map (referWords count) = items :=
      (List.map_congr_left fun other hother =>
        changeFirst_of_any_eq_false (hnone other hother)).trans (List.map_id _)
    rw [hsame]

/-- The words in front of the last one have no name. So the routes agree if the last word calls a
function, which stays as it is with a comma behind it too, and they agree on the items behind it. -/
theorem shorthandsAgree_of_no_name (count : Nat) {front : List String}
    (hfront : front.any isName = false) {last : String} (hne : last ≠ "")
    (items : List (List String)) :
    ((referWords count (front ++ comma last :: listWords items)).map bare =
        (withComma (referWords count (front ++ [last])) ++
          listWords (items.map (referWords count))).map bare →
      '(' ∈ last.toList ∧ (referWords count (listWords items)).map bare =
        (listWords (items.map (referWords count))).map bare) ∧
    ('(' ∈ last.toList →
      referWords count (listWords items) = listWords (items.map (referWords count)) →
      referWords count (front ++ comma last :: listWords items) =
        withComma (referWords count (front ++ [last])) ++
          listWords (items.map (referWords count))) := by
  have hchange : ∀ tail, referWords count (front ++ tail) = front ++ referWords count tail :=
    fun tail => by
      rw [referWords, changeFirst_append, hfront, if_neg Bool.false_ne_true, referWords]
  have hlast : referWords count [last] = [if isName last then refer last count else last] := by
    rw [referWords, changeFirst, changeFirst]
    split <;> rfl
  rw [hchange, hchange, hlast, withComma_concat, List.append_assoc, List.singleton_append]
  by_cases hfunction : '(' ∈ last.toList
  · -- No word of the item is changed on either route.
    have hcomma : isName (comma last) = false :=
      isName_eq_false_of_function (by simp [toList_comma, hfunction])
    rw [isName_eq_false_of_function hfunction, referWords, changeFirst, hcomma,
      if_neg Bool.false_ne_true, if_neg Bool.false_ne_true, ← referWords]
    constructor
    · intro h
      rw [List.map_append, List.map_append, List.append_cancel_left_eq] at h
      exact ⟨hfunction, (List.cons.inj h).2⟩
    · intro _ hsame
      rw [hsame]
  · -- The last word is changed with its comma.
    rw [referWords, changeFirst, if_pos (isName_comma hfunction)]
    constructor
    · intro h
      rw [List.map_append, List.map_append, List.append_cancel_left_eq] at h
      exact absurd (List.cons.inj h).1 (bare_refer_comma_ne hne)
    · exact fun hmem _ => absurd hmem hfunction

/-- A comma in front of the first name becomes a name itself. -/
theorem bare_referWords_comma_ne (tail tail' : List String) :
    (referWords count ("," :: tail)).map bare ≠ ("," :: tail').map bare := by
  have hname : isName (comma "") = true := isName_comma (by decide)
  change isName "," = true at hname
  rw [referWords, changeFirst, if_pos hname]
  exact fun h => bare_refer_ne count (by decide) (not_mem_keywords_of_isName hname)
    (List.cons.inj h).1

/-- The words of the two routes for a shorthand are the same exactly if the list agrees, and
otherwise they differ in more than blanks. -/
theorem shorthandsAgree_iff (count : Nat) {items : List (List String)}
    (hitems : ∀ words ∈ items, ∀ word ∈ words, EndsBare word) :
    ((referWords count (listWords items)).map bare =
        (listWords (items.map (referWords count))).map bare → ShorthandsAgree items) ∧
    (ShorthandsAgree items →
      referWords count (listWords items) = listWords (items.map (referWords count))) := by
  induction items with
  | nil => exact ⟨fun _ => trivial, fun _ => rfl⟩
  | cons words rest ih =>
    rw [List.forall_mem_cons] at hitems
    cases rest with
    | nil => exact ⟨fun _ => trivial, fun _ => rfl⟩
    | cons next rest =>
      obtain ⟨hwords, hrest⟩ := hitems
      have heach : listWords ((words :: next :: rest).map (referWords count)) =
          withComma (referWords count words) ++
            listWords ((next :: rest).map (referWords count)) := rfl
      rw [heach]
      obtain rfl | ⟨front, last, rfl⟩ := List.eq_nil_or_concat' words
      · -- Only the comma stands for an item without words, and it is changed in the text.
        exact ⟨fun h => absurd h (bare_referWords_comma_ne _ _),
          fun h => absurd h.1 (by simp)⟩
      rw [List.forall_mem_append, List.forall_mem_singleton] at hwords
      have hone : listWords ((front ++ [last]) :: next :: rest) =
          front ++ comma last :: listWords (next :: rest) := by
        rw [listWords, withComma_concat, List.append_assoc, List.singleton_append]
      rw [ShorthandsAgree, List.dropLast_concat, List.getLast?_concat, hone]
      by_cases hfront : front.any isName = true
      · rw [if_pos hfront]
        exact shorthandsAgree_of_name count hfront last hrest
      · rw [if_neg hfront]
        obtain ⟨ihto, ihfrom⟩ := ih hrest
        obtain ⟨hto, hfrom⟩ := shorthandsAgree_of_no_name count (by simpa using hfront)
          hwords.2.ne_empty (next :: rest)
        constructor
        · intro h
          obtain ⟨hfunction, hsame⟩ := hto h
          exact ⟨⟨last, rfl, hfunction⟩, ihto hsame⟩
        · rintro ⟨⟨word, hword, hfunction⟩, hagree⟩
          exact hfrom (Option.some.inj hword ▸ hfunction) (ihfrom hagree)

theorem bare_refer_eq_iff {name : String} :
    bare (refer name count) = bare name ↔ name = "" ∨ name ∈ keywords := by
  by_cases hempty : name = ""
  · exact iff_of_true (by rw [hempty]; rfl) (.inl hempty)
  · rw [or_iff_right hempty]
    refine ⟨fun h => ?_, fun h => by rw [refer_of_mem_keywords h]⟩
    by_contra hkeyword
    exact bare_refer_ne count hempty hkeyword h

theorem refer_eq_empty_iff {name : String} : refer name count = "" ↔ name = "" := by
  rw [refer]
  split
  · rfl
  · next hnot =>
    refine iff_of_false ?_ fun hempty => hnot (.inl (String.isEmpty_iff.2 hempty))
    rw [cellName_eq]
    exact fun h => hnot (.inl (String.isEmpty_iff.2 (String.append_eq_empty_iff.1 h).1))

/-- A reference is a word where its name is. -/
theorem oneWord_refer (name : String) :
    oneWord (refer name count) = (oneWord name).map fun name => refer name count := by
  simp only [oneWord, refer_eq_empty_iff]
  split <;> rfl

theorem refer_eq_self {name : String} (h : name = "" ∨ name ∈ keywords) :
    refer name count = name := by
  rw [refer, if_pos (h.imp_left String.isEmpty_iff.2)]

/-- The suffix of a cell is what makes a name refer to it, unless it is a keyword. -/
theorem bare_append_eq_refer_iff {name : String} (hne : name ≠ "") :
    bare (name ++ cellSuffix count) = bare (refer name count) ↔ name ∉ keywords := by
  refine ⟨fun h hkeyword => ?_, fun h => by rw [refer_of_not_mem_keywords hne h]⟩
  rw [refer_of_mem_keywords hkeyword, bare_append (not_isBlank_of_mem_cellSuffix count),
    List.append_right_eq_self, toList_cellSuffix] at h
  exact List.cons_ne_nil _ _ h

/-- The words of a list that ends with a name. -/
theorem listWords_oneWord_ne_nil {names : List String} (hne : names ≠ [])
    (hlast : ∀ name ∈ names.getLast?, name ≠ "") : listWords (names.map oneWord) ≠ [] := by
  refine listWords_ne_nil (by simpa using hne) fun words hmem => ?_
  rw [List.getLast?_map, Option.mem_def, Option.map_eq_some_iff] at hmem
  obtain ⟨last, hmem, rfl⟩ := hmem
  rw [oneWord, if_neg (hlast last hmem)]
  exact List.cons_ne_nil _ _

/-- The words of the two routes for names are the same exactly if the list agrees, and otherwise
they differ in more than blanks. -/
theorem namesAgree_iff (count : Nat) {names : List String} (hne : names ≠ [])
    (hlast : ∀ name ∈ names.getLast?, name ≠ "") :
    (((listWords (names.map oneWord)).modifyLast (· ++ cellSuffix count)).map bare =
        (listWords (names.map fun name => oneWord (refer name count))).map bare →
      NamesAgree names) ∧
    (NamesAgree names →
      (listWords (names.map oneWord)).modifyLast (· ++ cellSuffix count) =
        listWords (names.map fun name => oneWord (refer name count))) := by
  induction names with
  | nil => exact absurd rfl hne
  | cons name rest ih =>
    cases rest with
    | nil =>
      -- The only name is the last one.
      have hempty : name ≠ "" := hlast name rfl
      have hwords : listWords ([name].map oneWord) = [name] := if_neg hempty
      have hwords' : listWords ([name].map fun name => oneWord (refer name count)) =
          [refer name count] := if_neg (mt refer_eq_empty_iff.1 hempty)
      have hagree : NamesAgree [name] ↔ name ∉ keywords := by simp [NamesAgree]
      rw [hwords, hwords', hagree]
      change ([bare (name ++ cellSuffix count)] = [bare (refer name count)] → _) ∧
        (_ → [name ++ cellSuffix count] = [refer name count])
      refine ⟨fun h => (bare_append_eq_refer_iff hempty).1 (List.cons.inj h).1, fun h => ?_⟩
      rw [refer_of_not_mem_keywords hempty h]
    | cons next rest =>
      rw [List.getLast?_cons_cons] at hlast
      obtain ⟨ihto, ihfrom⟩ := ih (List.cons_ne_nil _ _) hlast
      have hwords := listWords_oneWord_ne_nil (List.cons_ne_nil next rest) hlast
      -- The first name has a comma on both routes.
      have hfirst : listWords ((name :: next :: rest).map oneWord) =
          comma name :: listWords ((next :: rest).map oneWord) := listWords_oneWord name _ _
      have hsecond : listWords ((name :: next :: rest).map fun name =>
            oneWord (refer name count)) = comma (refer name count) ::
          listWords ((next :: rest).map fun name => oneWord (refer name count)) :=
        listWords_oneWord (refer name count) _ _
      rw [hfirst, hsecond, modifyLast_cons _ hwords, List.map_cons, List.map_cons, NamesAgree,
        List.dropLast_cons_of_ne_nil (List.cons_ne_nil next rest), List.forall_mem_cons,
        List.getLast?_cons_cons]
      constructor
      · intro h
        obtain ⟨hcomma, hrest⟩ := List.cons.inj h
        rw [bare_comma, bare_comma] at hcomma
        exact ⟨⟨bare_refer_eq_iff.1 (List.append_cancel_right hcomma).symm, (ihto hrest).1⟩,
          (ihto hrest).2⟩
      · rintro ⟨⟨hkeyword, hothers⟩, hagree⟩
        rw [refer_eq_self hkeyword]
        exact congrArg _ (ihfrom ⟨hothers, hagree⟩)

end Changes

end Animation

end GridStyle
