import GridStyle.Proofs.Trimming

/-!
# Cutting at the Top Level

`Text.split` reads a text from left to right with the parts that are finished. Here it is a
recursion on the text (`cutTop`, `split_eq`), like `cutAt`, which does not look at the nesting. The
two cut the same text alike exactly if every separator is at the top level
(`cutTop_eq_cutAt_iff`).

A text is *closed* if it closes what it opens and nothing else (`Nesting.Closes`). The parts that
`cutAt` leaves are all closed exactly if the text is and no separator stands in parentheses or
quotes (`closes_cutAt_iff`).
-/

namespace GridStyle.Text

/-- The characters that a scan takes note of. -/
def marks : List Char := ['\x5c', '\x22', '\x27', '(', ')']

namespace Nesting

/-- No parenthesis and no quote is open. -/
def outside (s : Nesting) : Bool := s.quote.isNone && s.depth == 0

/-- The character closes a parenthesis, and none is open. -/
def unmatched (s : Nesting) (c : Char) : Bool := c == ')' && s.atTop

/-- From a place on, a text closes only parentheses that are open, and in the end nothing is. -/
def Closes (escapes : Bool) : Nesting → List Char → Prop
  | s, [] => s.outside = true
  | s, c :: cs => s.unmatched c = false ∧ Closes escapes (s.advance escapes c) cs

/-- From a place on, the separators of a text are at places that satisfy a condition. -/
def SeparatesAt (cutting : Cutting) (p : Nesting → Bool) : Nesting → List Char → Prop
  | _, [] => True
  | s, c :: cs => (cutting.separates c = true → p s = true) ∧
      SeparatesAt cutting p (s.advance cutting.escapes c) cs

instance decidableCloses (escapes : Bool) :
    (s : Nesting) → (cs : List Char) → Decidable (s.Closes escapes cs)
  | s, [] => inferInstanceAs (Decidable (s.outside = true))
  | s, c :: cs =>
    have := decidableCloses escapes (s.advance escapes c) cs
    inferInstanceAs (Decidable (_ ∧ _))

instance decidableSeparatesAt (cutting : Cutting) (p : Nesting → Bool) :
    (s : Nesting) → (cs : List Char) → Decidable (s.SeparatesAt cutting p cs)
  | _, [] => inferInstanceAs (Decidable True)
  | s, c :: cs =>
    have := decidableSeparatesAt cutting p (s.advance cutting.escapes c) cs
    inferInstanceAs (Decidable (_ ∧ _))

/-- A character that is no mark only uses up the protection of a backslash. -/
theorem advance_of_not_mem_marks {c : Char} (hc : c ∉ marks) (escapes : Bool) (s : Nesting) :
    s.advance escapes c = { s with escaped := false } := by
  simp only [marks, List.mem_cons, List.not_mem_nil, or_false, not_or] at hc
  rcases s with ⟨quote, depth, _ | _⟩ <;> simp [advance, hc]

theorem outside_advance_of_not_mem_marks {c : Char} (hc : c ∉ marks) (escapes : Bool)
    (s : Nesting) : (s.advance escapes c).outside = s.outside := by
  rw [advance_of_not_mem_marks hc]
  rfl

theorem unmatched_of_not_mem_marks {c : Char} (hc : c ∉ marks) (s : Nesting) :
    s.unmatched c = false := by
  have hne : c ≠ ')' := by
    rintro rfl
    exact hc (by decide)
  simp [unmatched, hne]

/-- At the top level nothing is open and nothing is protected. -/
theorem eq_start_of_atTop {s : Nesting} (h : s.atTop = true) : s = {} := by
  rcases s with ⟨quote, depth, escaped⟩
  simpa [atTop, and_assoc, and_comm, and_left_comm] using h

/-- Where nothing is open, a character that is no mark leads to the start. -/
theorem advance_of_outside {s : Nesting} (h : s.outside = true) {c : Char} (hc : c ∉ marks)
    (escapes : Bool) : s.advance escapes c = {} := by
  rw [advance_of_not_mem_marks hc]
  rcases s with ⟨quote, depth, escaped⟩
  simpa [outside] using h

/-- Without backslashes nothing is ever protected. -/
theorem escaped_advance {s : Nesting} (h : s.escaped = false) (c : Char) :
    (s.advance false c).escaped = false := by
  have hquote : (s.atQuote c).escaped = false := by
    rw [atQuote]
    split
    · exact h
    · split <;> exact h
  rw [advance, h, if_neg Bool.false_ne_true, Bool.false_and, if_neg Bool.false_ne_true]
  split_ifs
  · exact hquote
  all_goals first | exact h | rfl

variable {escapes : Bool} {cutting : Cutting}

/-- Characters in front that are no marks do not matter. -/
theorem closes_append_iff_of_left {front : List Char} (hfront : ∀ c ∈ front, c ∉ marks)
    (cs : List Char) : Closes escapes {} (front ++ cs) ↔ Closes escapes {} cs := by
  induction front with
  | nil => rfl
  | cons c front ih =>
    rw [List.forall_mem_cons] at hfront
    rw [List.cons_append, Closes, advance_of_outside rfl hfront.1, ih hfront.2,
      and_iff_right (unmatched_of_not_mem_marks hfront.1 _)]

/-- Characters at the end that are no marks do not matter. -/
theorem closes_append_iff_of_right {back : List Char} (hback : ∀ c ∈ back, c ∉ marks)
    (s : Nesting) (cs : List Char) : s.Closes escapes (cs ++ back) ↔ s.Closes escapes cs := by
  induction cs generalizing s with
  | nil =>
    induction back generalizing s with
    | nil => rfl
    | cons c back ih =>
      rw [List.forall_mem_cons] at hback
      rw [List.nil_append] at ih ⊢
      have hnext := ih hback.2 (s.advance escapes c)
      rw [Closes] at hnext
      rw [Closes, Closes, hnext, and_iff_right (unmatched_of_not_mem_marks hback.1 _),
        outside_advance_of_not_mem_marks hback.1]
  | cons c cs ih => rw [List.cons_append, Closes, Closes, ih]

/-- A front without marks and separators does not matter. -/
theorem separatesAt_append_iff {front : List Char}
    (hfront : ∀ c ∈ front, c ∉ marks ∧ cutting.separates c = false) (p : Nesting → Bool)
    (cs : List Char) :
    SeparatesAt cutting p {} (front ++ cs) ↔ SeparatesAt cutting p {} cs := by
  induction front with
  | nil => rfl
  | cons c front ih =>
    rw [List.forall_mem_cons] at hfront
    have hc : ¬ cutting.separates c = true := by simp [hfront.1.2]
    rw [List.cons_append, SeparatesAt, advance_of_outside rfl hfront.1.1, ih hfront.2,
      and_iff_right fun h => absurd h hc]

end Nesting

/-! ### Closed parts -/

/-- Blanks are no marks. -/
theorem not_mem_marks_of_isBlank {c : Char} (h : isBlank c = true) : c ∉ marks := by
  intro hc
  simp only [marks, List.mem_cons, List.not_mem_nil, or_false] at hc
  rcases hc with rfl | rfl | rfl | rfl | rfl <;> exact absurd h (by decide)

/-- What is no blank survives trimming. -/
theorem mem_trim_iff {c : Char} (hc : isBlank c = false) {cs : List Char} :
    c ∈ trim cs ↔ c ∈ cs := by
  obtain ⟨front, back, heq, hfront, hback⟩ := exists_eq_append_trim cs
  have hnot : ∀ {ends : List Char}, (∀ c ∈ ends, isBlank c = true) → c ∉ ends := fun h hmem => by
    rw [h c hmem] at hc
    exact absurd hc (by decide)
  conv_rhs => rw [heq]
  simp [hnot hfront, hnot hback]

/-- Trimming does not matter to whether a text is closed. -/
theorem closes_trim_iff {escapes : Bool} (cs : List Char) :
    Nesting.Closes escapes {} (trim cs) ↔ Nesting.Closes escapes {} cs := by
  obtain ⟨front, back, heq, hfront, hback⟩ := exists_eq_append_trim cs
  conv_rhs => rw [heq]
  rw [Nesting.closes_append_iff_of_left fun c hc => not_mem_marks_of_isBlank (hfront c hc),
    Nesting.closes_append_iff_of_right fun c hc => not_mem_marks_of_isBlank (hback c hc)]

/-- The parts between all separators are closed exactly if the whole is closed and every separator
is outside of parentheses and quotes. -/
theorem closes_cutAt_iff {cutting : Cutting} (hmarks : ∀ c, cutting.separates c = true → c ∉ marks)
    {s : Nesting} {cs part : List Char} {parts : List (List Char)}
    (hcut : cutAt cutting.separates cs = part :: parts) :
    (s.Closes cutting.escapes part ∧
        ∀ part ∈ parts, Nesting.Closes cutting.escapes {} part) ↔
      s.Closes cutting.escapes cs ∧ s.SeparatesAt cutting Nesting.outside cs := by
  induction cs generalizing s part parts with
  | nil =>
    rw [cutAt, List.cons.injEq] at hcut
    obtain ⟨rfl, rfl⟩ := hcut
    simp [Nesting.SeparatesAt]
  | cons c cs ih =>
    obtain ⟨first, rest, hrest⟩ := List.exists_cons_of_ne_nil (cutAt_ne_nil cutting.separates cs)
    rw [cutAt, hrest] at hcut
    by_cases hc : cutting.separates c = true
    · rw [if_pos hc, List.cons.injEq] at hcut
      obtain ⟨rfl, rfl⟩ := hcut
      rw [List.forall_mem_cons, ih hrest, Nesting.Closes, Nesting.Closes, Nesting.SeparatesAt]
      -- Behind a separator outside of everything the scan is at the start.
      by_cases hout : s.outside = true
      · rw [Nesting.advance_of_outside hout (hmarks c hc),
          and_iff_right (Nesting.unmatched_of_not_mem_marks (hmarks c hc) s)]
        simp [hout]
      · simp [hout, hc]
    · rw [if_neg hc, List.cons.injEq] at hcut
      obtain ⟨rfl, rfl⟩ := hcut
      rw [Nesting.Closes, Nesting.Closes, Nesting.SeparatesAt, and_assoc, ih hrest, and_assoc,
        and_iff_right (fun h => absurd h hc : cutting.separates c = true → s.outside = true)]

/-! ### Splitting as a recursion -/

/-- Cut a text at its separators at the top level, keeping empty parts. -/
def cutTop (cutting : Cutting) : Nesting → List Char → List (List Char)
  | _, [] => [[]]
  | s, c :: cs =>
    if s.atTop && cutting.separates c then [] :: cutTop cutting s cs
    else (cutTop cutting (s.advance cutting.escapes c) cs).modifyHead (c :: ·)

/-- Trim parts and drop the empty ones. -/
def tidy (parts : List (List Char)) : List (List Char) :=
  (parts.map trim).filter (· ≠ [])

theorem tidy_cons (part : List Char) (parts : List (List Char)) :
    tidy (part :: parts) = tidy [part] ++ tidy parts := by
  rw [tidy, tidy, tidy, ← List.filter_append, ← List.map_append, List.singleton_append]

theorem Splitting.close_reverse (s : Splitting) :
    s.close.reverse = s.parts.reverse ++ tidy [s.current.reverse] := by
  rw [Splitting.close_eq]
  by_cases hempty : trim s.current.reverse = [] <;> simp [tidy, hempty]

variable (cutting : Cutting)

/-- Something always comes out of `cutTop`. -/
theorem exists_cutTop_eq (s : Nesting) (cs : List Char) :
    ∃ part parts, cutTop cutting s cs = part :: parts := by
  induction cs generalizing s with
  | nil => exact ⟨[], [], rfl⟩
  | cons c cs ih =>
    rw [cutTop]
    split
    · exact ⟨_, _, rfl⟩
    · obtain ⟨part, parts, hcut⟩ := ih (s.advance cutting.escapes c)
      exact ⟨c :: part, parts, by rw [hcut]; rfl⟩

/-- An unfinished split ends with the parts that the rest of the text is cut into, the first one
behind what is read of the current part. -/
theorem close_foldl_push (s : Splitting) (cs : List Char) :
    (cs.foldl (Splitting.push cutting) s).close.reverse =
      s.parts.reverse ++
        tidy ((cutTop cutting s.nesting cs).modifyHead (s.current.reverse ++ ·)) := by
  induction cs generalizing s with
  | nil => simp [Splitting.close_reverse, cutTop]
  | cons c cs ih =>
    rw [List.foldl_cons, ih, Splitting.push, cutTop]
    split
    · obtain ⟨part, parts, hcut⟩ := exists_cutTop_eq cutting s.nesting cs
      rw [hcut, List.modifyHead_cons, List.modifyHead_cons, List.append_nil,
        tidy_cons s.current.reverse, ← List.append_assoc, ← Splitting.close_reverse]
      rfl
    · obtain ⟨part, parts, hcut⟩ :=
        exists_cutTop_eq cutting (s.nesting.advance cutting.escapes c) cs
      simp [hcut]

/-- A text is split into the parts between its separators at the top level. -/
theorem split_eq (cs : List Char) : split cutting cs = tidy (cutTop cutting {} cs) := by
  rw [split, close_foldl_push]
  obtain ⟨part, parts, hcut⟩ := exists_cutTop_eq cutting {} cs
  simp [hcut]

variable {cutting}

/-- The parts have no separators exactly if every separator is at the top level. -/
theorem forall_cutTop_iff (hmarks : ∀ c, cutting.separates c = true → c ∉ marks) (s : Nesting)
    (cs : List Char) :
    (∀ part ∈ cutTop cutting s cs, ∀ c ∈ part, cutting.separates c = false) ↔
      s.SeparatesAt cutting Nesting.atTop cs := by
  induction cs generalizing s with
  | nil => simp [cutTop, Nesting.SeparatesAt]
  | cons c cs ih =>
    rw [cutTop, Nesting.SeparatesAt]
    cases hc : cutting.separates c with
    | true =>
      cases htop : s.atTop with
      | true =>
        obtain rfl := Nesting.eq_start_of_atTop htop
        rw [Bool.and_self, if_pos rfl, List.forall_mem_cons, ih,
          Nesting.advance_of_outside rfl (hmarks c hc)]
        simp
      | false =>
        obtain ⟨part, parts, hcut⟩ := exists_cutTop_eq cutting (s.advance cutting.escapes c) cs
        simp [hcut, hc]
    | false =>
      rw [Bool.and_false, if_neg Bool.false_ne_true, ← ih]
      obtain ⟨part, parts, hcut⟩ := exists_cutTop_eq cutting (s.advance cutting.escapes c) cs
      simp [hcut, hc]

/-- Where every separator is at the top level, the nesting does not matter. -/
theorem cutTop_eq_cutAt {s : Nesting} {cs : List Char}
    (hmarks : ∀ c, cutting.separates c = true → c ∉ marks)
    (h : s.SeparatesAt cutting Nesting.atTop cs) :
    cutTop cutting s cs = cutAt cutting.separates cs := by
  induction cs generalizing s with
  | nil => rfl
  | cons c cs ih =>
    rw [cutTop, cutAt]
    by_cases hc : cutting.separates c = true
    · have hsame : s.advance cutting.escapes c = s := by
        rw [Nesting.eq_start_of_atTop (h.1 hc), Nesting.advance_of_outside rfl (hmarks c hc)]
      rw [h.1 hc, hc, Bool.and_self, if_pos rfl, if_pos rfl, ih (hsame ▸ h.2)]
    · have hnot : ¬ (s.atTop && cutting.separates c) = true := by simp [hc]
      rw [if_neg hnot, if_neg hc, ih h.2]
      obtain ⟨part, parts, hcut⟩ := List.exists_cons_of_ne_nil (cutAt_ne_nil cutting.separates cs)
      rw [hcut]
      rfl

/-- Splitting regards no nesting exactly if every separator is at the top level. -/
theorem split_eq_tidy_cutAt_iff (hmarks : ∀ c, cutting.separates c = true → c ∉ marks)
    (hblank : ∀ c, cutting.separates c = true → isBlank c = false) (cs : List Char) :
    split cutting cs = tidy (cutAt cutting.separates cs) ↔
      Nesting.SeparatesAt cutting Nesting.atTop {} cs := by
  refine ⟨fun h => ?_, fun h => by rw [split_eq, cutTop_eq_cutAt hmarks h]⟩
  rw [← forall_cutTop_iff hmarks]
  intro part hpart c hc
  by_contra hsep
  rw [Bool.not_eq_false] at hsep
  -- A separator in a part is still there when the part is trimmed.
  have htrim := (mem_trim_iff (hblank c hsep)).2 hc
  have hmem : trim part ∈ tidy (cutAt cutting.separates cs) := by
    rw [← h, split_eq, tidy, List.mem_filter]
    exact ⟨List.mem_map_of_mem hpart, by simpa using List.ne_nil_of_mem htrim⟩
  rw [tidy, List.mem_filter, List.mem_map] at hmem
  obtain ⟨⟨other, hother, heq⟩, -⟩ := hmem
  rw [← heq, mem_trim_iff (hblank c hsep)] at htrim
  have hnot := (of_mem_cutAt hother c htrim).2
  rw [hsep] at hnot
  exact absurd hnot (by decide)

/-! ### Value lists -/

theorem not_mem_marks_of_atCommas {c : Char} (h : atCommas.separates c = true) : c ∉ marks := by
  obtain rfl : c = ',' := by simpa [atCommas] using h
  decide

theorem not_isBlank_of_atCommas {c : Char} (h : atCommas.separates c = true) :
    isBlank c = false := by
  obtain rfl : c = ',' := by simpa [atCommas] using h
  decide

/-- Parentheses are balanced and quotes are closed. -/
def IsClosed (text : String) : Prop := Nesting.Closes true {} text.toList

/-- The commas of a text are outside of parentheses and quotes. -/
def CommasOutside (text : String) : Prop :=
  Nesting.SeparatesAt atCommas Nesting.outside {} text.toList

/-- The commas of a text are at its top level. -/
def CommasAtTop (text : String) : Prop :=
  Nesting.SeparatesAt atCommas Nesting.atTop {} text.toList

instance : DecidablePred IsClosed := fun text =>
  inferInstanceAs (Decidable (Nesting.Closes true {} text.toList))

instance : DecidablePred CommasOutside := fun text =>
  inferInstanceAs (Decidable (Nesting.SeparatesAt atCommas Nesting.outside {} text.toList))

instance : DecidablePred CommasAtTop := fun text =>
  inferInstanceAs (Decidable (Nesting.SeparatesAt atCommas Nesting.atTop {} text.toList))

end GridStyle.Text
