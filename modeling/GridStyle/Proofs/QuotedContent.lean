import GridStyle.Proofs.AnimationLists

/-!
# Quoted Content

The value of a `content` declaration is quoted unless the composed text is content as it stands
(`content_quoted_iff`). A text that is no keyword, calls none of the functions and does not begin
with a quotation mark is plain (`Content.IsPlain`), but it counts as content as it stands as soon as
a quotation mark is anywhere in it. So the declared value of a plain text is between quotation marks
exactly if the text has none, and a text such as `it's` is declared without
(`apostrophe_unquoted`).
-/

namespace GridStyle

open Expanding

namespace Content

/-- The quotation marks. -/
def isMark (c : Char) : Bool := c == '\x22' || c == '\x27'

/-- The value starts and ends with a quotation mark. -/
def IsQuoted (value : String) : Prop :=
  value.toList.head?.any isMark = true ∧ value.toList.getLast?.any isMark = true

/-- The text is neither `none` nor a call that is written without quotes, and it does not begin with
a quotation mark. -/
structure IsPlain (text : String) : Prop where
  /-- The text is no keyword. -/
  notNone : text ≠ "none"
  /-- The text calls no function. -/
  noCall : ∀ call ∈ calls, ¬ call.toList <+: text.toList
  /-- The text does not begin with a quotation mark. -/
  unquoted : text.toList.head?.any isMark = false

instance (value : String) : Decidable (IsQuoted value) :=
  inferInstanceAs (Decidable (_ ∧ _))

instance : DecidablePred IsPlain := fun text =>
  decidable_of_iff (text ≠ "none" ∧ (∀ call ∈ calls, ¬ call.toList <+: text.toList) ∧
      text.toList.head?.any isMark = false)
    ⟨fun h => ⟨h.1, h.2.1, h.2.2⟩, fun h => ⟨h.notNone, h.noCall, h.unquoted⟩⟩

variable {text : String}

theorem not_isQuoted_of_isPlain (h : IsPlain text) : ¬ IsQuoted text := by
  rintro ⟨hfirst, -⟩
  rw [h.unquoted] at hfirst
  exact absurd hfirst (by decide)

/-- A text that begins with a quotation mark has one. -/
theorem any_isMark_of_head? (h : text.toList.head?.any isMark = true) :
    text.toList.any isMark = true := by
  cases hcs : text.toList with
  | nil => simp [hcs] at h
  | cons c cs =>
    rw [hcs, List.head?_cons, Option.any_some] at h
    rw [List.any_cons, h, Bool.true_or]

/-- Content as it stands is what is not plain, and what has a quotation mark anywhere. -/
theorem isBare_eq_false_iff :
    isBare text = false ↔ IsPlain text ∧ text.toList.any isMark = false := by
  have hcalls : (calls.any fun call => call.toList.isPrefixOf text.toList) = false ↔
      ∀ call ∈ calls, ¬ call.toList <+: text.toList := by
    simp [List.any_eq_false, List.isPrefixOf_iff_prefix]
  rw [isBare, Bool.or_eq_false_iff, Bool.or_eq_false_iff, hcalls, beq_eq_false_iff_ne]
  constructor
  · rintro ⟨⟨hmark, hnone⟩, hcall⟩
    refine ⟨⟨hnone, hcall, ?_⟩, hmark⟩
    -- Without any quotation mark there is none in front.
    rw [Bool.eq_false_iff]
    intro hfirst
    have hany := any_isMark_of_head? hfirst
    rw [show text.toList.any isMark = false from hmark] at hany
    exact absurd hany (by decide)
  · rintro ⟨⟨hnone, hcall, -⟩, hmark⟩
    exact ⟨⟨hmark, hnone⟩, hcall⟩

/-- Quoted are the plain texts without a quotation mark, and all others are left alone. -/
theorem quote_eq (text : String) :
    quote text = if IsPlain text ∧ text.toList.any isMark = false then "'" ++ text ++ "'"
      else text := by
  simp only [quote, ← isBare_eq_false_iff]
  cases isBare text <;> rfl

theorem isQuoted_quoted (text : String) : IsQuoted ("'" ++ text ++ "'") := by
  constructor
  · rw [String.toList_append, String.toList_append]
    rfl
  · rw [String.toList_append]
    exact (congrArg (Option.any isMark) List.getLast?_concat).trans rfl

/-- The value of a plain text is quoted exactly if the text has no quotation mark. -/
theorem isQuoted_quote_iff (h : IsPlain text) :
    IsQuoted (quote text) ↔ ∀ c ∈ text.toList, isMark c = false := by
  have hnone : text.toList.any isMark = false ↔ ∀ c ∈ text.toList, isMark c = false := by simp
  rw [quote_eq, ← hnone]
  by_cases hmark : text.toList.any isMark = false
  · rw [if_pos ⟨h, hmark⟩]
    exact iff_of_true (isQuoted_quoted text) hmark
  · rw [if_neg fun hboth => hmark hboth.2]
    exact iff_of_false (not_isQuoted_of_isPlain h) hmark

end Content

namespace Expanding

/-- A `content` rule declares the text that its value composes to, quoted where it needs to be, and
leaves the state with what composing the value left of the context. -/
theorem perform_composeRule_content (kit : Toolkit) (cell : Cell) (selector : Option String)
    {value : List ValueGroup} (styles : List Token) {s : Expansion} {texts : List String}
    {c : Context} (hvalue : (groupTexts kit.functions cell value).perform s.context =
      (.ok texts, c)) :
    (composeRule kit cell selector ⟨"content", value, styles⟩).perform s =
      (.ok (Directive.declare "content" (Content.quote (String.intercalate ", " texts))),
        s.withContext c) := by
  have huse : "content" ≠ "@use" := by decide
  have hgrid : "content" ≠ "@grid" := by decide
  have htext (written : String) : propertyText kit .content selector "content" written =
      Directive.declare "content" written :=
    propertyText_eq_declare kit selector (fun _ => rfl) (by decide) nofun nofun
  refine (perform_composeRule_ok kit cell huse).2 ⟨texts, c, hvalue, (htext _).symm, ?_⟩
  rw [gridChanges, if_neg hgrid, Expansion.applyAll_nil]
  rfl

end Expanding

/-- A `content` rule declares the composed text of its value. If the text is plain, what is declared
is the text between quotation marks if there is no quotation mark in it, and the bare text if there
is one, at whatever place. A text that is not plain is declared bare. -/
theorem content_quoted_iff (kit : Toolkit) (cell : Cell) (selector : Option String)
    {value : List ValueGroup} (styles : List Token) {s : Expansion} {texts : List String}
    {c : Context} (hvalue : (groupTexts kit.functions cell value).perform s.context =
      (.ok texts, c)) :
    ∃ written, (composeRule kit cell selector ⟨"content", value, styles⟩).perform s =
        (.ok ("content: " ++ written ++ ";"), s.withContext c) ∧
      (written = String.intercalate ", " texts ∨
        written = "'" ++ String.intercalate ", " texts ++ "'") ∧
      (Content.IsPlain (String.intercalate ", " texts) →
        (Content.IsQuoted written ↔
          ∀ mark ∈ (String.intercalate ", " texts).toList, Content.isMark mark = false)) ∧
      (¬ Content.IsPlain (String.intercalate ", " texts) →
        written = String.intercalate ", " texts) := by
  refine ⟨_, perform_composeRule_content kit cell selector styles hvalue, ?_,
    fun hplain => Content.isQuoted_quote_iff hplain, fun hplain => ?_⟩
  · rw [Content.quote]
    split
    · exact .inl rfl
    · exact .inr rfl
  · rw [Content.quote_eq, if_neg fun hboth => hplain hboth.1]

/-- Two value groups, one of them a counter in words. -/
theorem content_quoted_iff_groups :
    (groupTexts Toolkit.builtin.functions Cell.discovery
        [[.text "say hi"], [.text "counter(n)"]]).perform (Expansion.ofSeed 1).context =
          (.ok ["say hi", "counter(n)"], (Expansion.ofSeed 1).context) ∧
      ∃ written, (composeRule .builtin Cell.discovery none
          ⟨"content", [[.text "say hi"], [.text "counter(n)"]], []⟩).perform (.ofSeed 1) =
            (.ok ("content: " ++ written ++ ";"), .ofSeed 1) ∧
        Content.IsQuoted written := by
  have hne : ∀ text ∈ ["say hi", "counter(n)"], text ≠ "" := by decide
  have hvalue : (groupTexts Toolkit.builtin.functions Cell.discovery
      [[.text "say hi"], [.text "counter(n)"]]).perform (Expansion.ofSeed 1).context =
        (.ok ["say hi", "counter(n)"], (Expansion.ofSeed 1).context) :=
    perform_groupTexts_texts hne _
  refine ⟨hvalue, ?_⟩
  obtain ⟨written, hcompose, -, hquoted, -⟩ :=
    content_quoted_iff .builtin Cell.discovery none [] hvalue
  exact ⟨written, hcompose, (hquoted (by decide)).2 (Text.forall_mem_of_all (by decide))⟩

/-- A rule with one text declares what becomes of it. -/
theorem composeRule_content_text {text declared : String} (hne : text ≠ "")
    (hdeclared : Directive.declare "content" (Content.quote text) = declared) :
    (composeRule .builtin Cell.discovery none ⟨"content", [[.text text]], []⟩).perform
      (.ofSeed 1) = (.ok declared, .ofSeed 1) := by
  have hvalue : (groupTexts Toolkit.builtin.functions Cell.discovery [[.text text]]).perform
      (Expansion.ofSeed 1).context = (.ok [text], (Expansion.ofSeed 1).context) := by
    rw [perform_groupTexts_text, if_neg (by simpa using hne)]
  have hcompose := perform_composeRule_content .builtin Cell.discovery none [] hvalue
  rwa [String.intercalate_singleton, hdeclared, Expansion.withContext_context] at hcompose

/-- An apostrophe, or quotation marks further on, are enough for a plain text to be declared bare.
-/
theorem apostrophe_unquoted :
    (Content.IsPlain "it's" ∧ ¬ Content.IsQuoted "it's" ∧
      (composeRule .builtin Cell.discovery none ⟨"content", [[.text "it's"]], []⟩).perform
        (.ofSeed 1) = (.ok "content: it's;", .ofSeed 1)) ∧
    Content.IsPlain "say \x22hi\x22 now" ∧ ¬ Content.IsQuoted "say \x22hi\x22 now" ∧
      (composeRule .builtin Cell.discovery none
        ⟨"content", [[.text "say \x22hi\x22 now"]], []⟩).perform (.ofSeed 1) =
          (.ok "content: say \x22hi\x22 now;", .ofSeed 1) :=
  ⟨⟨by decide, by decide, composeRule_content_text (by decide) (by decide)⟩, by decide,
    by decide, composeRule_content_text (by decide) (by decide)⟩

end GridStyle
