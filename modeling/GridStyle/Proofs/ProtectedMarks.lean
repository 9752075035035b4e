import GridStyle.Proofs.TwoAxes

/-!
# Protected Marks

A value list is read with backslashes that protect, and a shorthand without them. The two scans have
the same quotes and parentheses open at every place of a text exactly if no backslash keeps a mark
from opening or closing something there (`readAlike_iff`).

Words that are joined with spaces are the words of the result exactly if they are closed in the
reading without backslashes (`joined_words_split`). For words that are closed in the other reading
this is so where the two scans agree. It fails for a string with an escaped quotation mark and a
blank behind that (`escaped_mark_cut`).
-/

namespace GridStyle.Text

namespace Nesting

/-! ### Places of the two scans -/

/-- What is open at a place, whether or not a backslash protects the next character. -/
def unprotected (s : Nesting) : Nesting := { s with escaped := false }

/-- A backslash keeps the character from opening or closing something. -/
def disarms (s : Nesting) (c : Char) : Bool :=
  s.escaped && s.unprotected.advance false c != s.unprotected

/-- From a place on, no backslash keeps a character from opening or closing something. -/
def DisarmsNothing : Nesting → List Char → Prop
  | _, [] => True
  | s, c :: cs => s.disarms c = false ∧ (s.advance true c).DisarmsNothing cs

instance decidableDisarmsNothing :
    (s : Nesting) → (cs : List Char) → Decidable (s.DisarmsNothing cs)
  | _, [] => inferInstanceAs (Decidable True)
  | s, c :: cs =>
    have := decidableDisarmsNothing (s.advance true c) cs
    inferInstanceAs (Decidable (_ ∧ _))

/-- Nothing is open where a scan without backslashes is at the top level. -/
theorem atTop_unprotected (s : Nesting) : s.unprotected.atTop = s.outside := by
  simp [atTop, outside, unprotected]

theorem unprotected_eq_self {s : Nesting} (h : s.escaped = false) : s.unprotected = s := by
  rw [unprotected, ← h]

/-- The same is open behind a character in both readings unless it is disarmed. -/
theorem unprotected_advance_iff (s : Nesting) (c : Char) :
    (s.advance true c).unprotected = s.unprotected.advance false c ↔ s.disarms c = false := by
  cases hescaped : s.escaped with
  | true =>
    have hadvance : s.advance true c = s.unprotected := by rw [advance, if_pos hescaped]; rfl
    rw [hadvance, disarms, hescaped, Bool.true_and, bne_eq_false_iff_eq, eq_comm]
    rfl
  | false =>
    have hdisarms : s.disarms c = false := by rw [disarms, hescaped, Bool.false_and]
    rw [unprotected_eq_self hescaped, iff_true_right hdisarms]
    by_cases hc : c = '\x5c'
    · -- The backslash itself opens and closes nothing.
      subst hc
      obtain ⟨quote, depth, escaped⟩ := s
      obtain rfl : escaped = false := hescaped
      simp [advance, unprotected]
    · rw [advance_escapes hc, unprotected_eq_self (escaped_advance hescaped c)]

variable {s : Nesting} {cs : List Char}

/-- The two scans of a text have the same open at every place exactly if no mark is disarmed. -/
theorem scan_unprotected_iff :
    (∀ front, front <+: cs → (s.scan true front).unprotected = s.unprotected.scan false front) ↔
      s.DisarmsNothing cs := by
  induction cs generalizing s with
  | nil =>
    refine iff_of_true (fun front hfront => ?_) trivial
    rw [List.prefix_nil.1 hfront]
    rfl
  | cons c cs ih =>
    rw [DisarmsNothing, ← ih, ← unprotected_advance_iff]
    constructor
    · intro h
      -- The place behind the first character says that this one disarms nothing.
      have hfirst : (s.advance true c).unprotected = s.unprotected.advance false c :=
        h [c] (List.prefix_append [c] cs)
      refine ⟨hfirst, fun front hfront => ?_⟩
      rw [hfirst]
      exact h (c :: front) ((List.prefix_cons_inj c).2 hfront)
    · rintro ⟨hfirst, hrest⟩ front hfront
      rcases front with _ | ⟨d, front⟩
      · rfl
      · rw [List.cons_prefix_cons] at hfront
        obtain ⟨rfl, hfront⟩ := hfront
        rw [scan, List.foldl_cons, scan, List.foldl_cons, ← hfirst]
        exact hrest front hfront

/-- Separators inside of what is open are so also in the reading without backslashes. -/
theorem SeparatesAt.unprotected {separates : Char → Bool}
    (h : s.SeparatesAt ⟨separates, true⟩ (fun s => !s.outside) cs) (hnone : s.DisarmsNothing cs) :
    s.unprotected.Whole ⟨separates, false⟩ cs := by
  induction cs generalizing s with
  | nil => trivial
  | cons c cs ih =>
    refine ⟨fun hc => ?_, ?_⟩
    · change (!s.unprotected.atTop) = true
      rw [atTop_unprotected]
      exact h.1 hc
    · have hnext := ih h.2 hnone.2
      rwa [(unprotected_advance_iff s c).2 hnone.1] at hnext

end Nesting

open Nesting

/-- At every place of the text the same quotes and parentheses are open, with backslashes that
protect and without. -/
def ReadAlike (text : String) : Prop :=
  ∀ front, front <+: text.toList → (scan true {} front).unprotected = scan false {} front

theorem readAlike_iff {text : String} : ReadAlike text ↔ DisarmsNothing {} text.toList :=
  scan_unprotected_iff

/-! ### Words -/

/-- A text that closes its quotes and parentheses and has its blanks inside of these, where a
backslash protects as in a value list. -/
structure IsClosedWord (text : String) : Prop where
  /-- There is something. -/
  ne_empty : text ≠ ""
  /-- The blanks are in parentheses or quotes. -/
  blanks : SeparatesAt ⟨isBlank, true⟩ (fun s => !s.outside) {} text.toList
  /-- In the end no quote and no parenthesis is open. -/
  closed : (scan true {} text.toList).outside = true

instance : DecidablePred IsClosedWord := fun text =>
  decidable_of_iff (text ≠ "" ∧ SeparatesAt ⟨isBlank, true⟩ (fun s => !s.outside) {} text.toList ∧
      (scan true {} text.toList).outside = true)
    ⟨fun h => ⟨h.1, h.2.1, h.2.2⟩, fun h => ⟨h.1, h.2, h.3⟩⟩

namespace IsClosedWord

variable {text : String}

/-- Read alike, the text ends at the top level of the scan for words. -/
theorem atTop (h : IsClosedWord text) (halike : ReadAlike text) :
    (scan false {} text.toList).atTop = true := by
  rw [← halike text.toList List.prefix_rfl, atTop_unprotected]
  exact h.closed

theorem isPart (h : IsClosedWord text) (halike : ReadAlike text) :
    IsPart atBlanks text.toList := by
  have hwhole : Whole atBlanks {} text.toList := h.blanks.unprotected (readAlike_iff.1 halike)
  exact ⟨fun hnil => h.ne_empty (String.toList_eq_nil_iff.1 hnil),
    trim_of_whole hwhole (h.atTop halike), hwhole⟩

end IsClosedWord

/-- Closed words that are read alike can be joined. -/
theorem stayWords_of_readAlike {words : List String}
    (h : ∀ word ∈ words, IsClosedWord word ∧ ReadAlike word) : StayWords words :=
  ⟨fun word hword => (h word hword).1.isPart (h word hword).2, fun word hword =>
    have hword := h word (List.dropLast_subset words hword)
    hword.1.atTop hword.2⟩

/-- Words that are joined with spaces are the words of the result exactly if each of them is a part
of a split at blanks and all but the last one end at the top level, in the reading without
backslashes. Words that are closed where backslashes protect are such words if the same is open in
both readings at every place of them. This is so in a text exactly if no backslash keeps a mark from
opening or closing something. -/
theorem joined_words_split (words : List String) :
    (splitWords (String.intercalate " " words) = words ↔ StayWords words) ∧
    ((∀ word ∈ words, IsClosedWord word ∧ ReadAlike word) →
      splitWords (String.intercalate " " words) = words) ∧
    ∀ text, ReadAlike text ↔ DisarmsNothing {} text.toList := by
  refine ⟨⟨fun h => ?_, fun h => h.splitWords_intercalate⟩, fun h => ?_, fun text => readAlike_iff⟩
  · rw [← h]
    exact stayWords_splitWords _
  · exact (stayWords_of_readAlike h).splitWords_intercalate

/-- Backslashes in front of a letter, of another backslash and of a quotation mark of the other kind
change nothing, nor do they in front of a parenthesis in quotes. -/
theorem joined_words_split_alike :
    let words := ["\x22it\\'s (a \\( b\x22", "f(\x22x\\\\\x22, g(y z))", "c\\d"]
    (∀ word ∈ words, IsClosedWord word ∧ ReadAlike word) ∧
      splitWords (String.intercalate " " words) = words := by
  intro words
  have hwords : ∀ word ∈ words, IsClosedWord word ∧ DisarmsNothing {} word.toList := by
    decide +kernel
  have halike : ∀ word ∈ words, IsClosedWord word ∧ ReadAlike word := fun word hword =>
    (hwords word hword).imp_right readAlike_iff.2
  exact ⟨halike, (joined_words_split words).2.1 halike⟩

/-- A string with an escaped quotation mark and a blank behind that is one item of a value list, but
two words. -/
theorem escaped_mark_cut :
    IsClosedWord "\x22a\\\x22 b\x22" ∧
    splitGroup "\x22a\\\x22 b\x22" = ["\x22a\\\x22 b\x22"] ∧
    splitWords (String.intercalate " " ["\x22a\\\x22 b\x22"]) =
      ["\x22a\\\x22", "b\x22"] := by
  decide +kernel

end GridStyle.Text
