import GridStyle.Text.Split
import Mathlib.Data.List.DropRight

/-!
# Trimming and Cutting

Trimming takes away the blanks at the ends of a text and nothing else (`exists_eq_append_trim`): it
leaves a text alone that has none there (`trim_eq_self_iff`), stops at a front that has none at its
ends (`trim_append`), and does not matter where all blanks are dropped (`dropBlanks_trim`). A front
without separators belongs to the first part that a text is cut into (`cutAt_append`), a back
without them to the last one (`exists_cutAt_append`), and every separator cuts (`cutAt_separator`).
-/

namespace GridStyle.Text

/-- A condition on the characters of a fixed text is checked one by one. Deciding the statement
about all of them may go through all characters that there are. -/
theorem forall_mem_of_all {p : Char → Prop} [DecidablePred p] {cs : List Char}
    (h : (cs.all fun c => p c) = true) : ∀ c ∈ cs, p c := by
  simpa using h

/-- The characters between the space and the first control character after it are no blanks. -/
theorem isBlank_eq_false {c : Char} (hlow : 32 < c.toNat) (hhigh : c.toNat < 128) :
    isBlank c = false := by
  simp [isBlank, blankRanges]
  omega

/-- A text stays as it is when trimmed exactly if no blank is at its ends. -/
theorem trim_eq_self_iff {cs : List Char} :
    trim cs = cs ↔
      (∀ h : cs ≠ [], ¬ isBlank (cs.head h) = true) ∧
        ∀ h : cs ≠ [], ¬ isBlank (cs.getLast h) = true := by
  have hdrop : cs.dropWhile isBlank = cs ↔ ∀ h : cs ≠ [], ¬ isBlank (cs.head h) = true := by
    cases cs with
    | nil => simp
    | cons c cs => simp [List.dropWhile_eq_self_iff]
  rw [← hdrop]
  constructor
  · intro h
    -- What is dropped at one end cannot be made up for at the other.
    have hpre : trim cs <+: cs.dropWhile isBlank := List.rdropWhile_prefix _ _
    have hlength := List.length_dropWhile_le isBlank cs
    have hle := hpre.length_le
    rw [h] at hpre hle
    have heq : cs.dropWhile isBlank = cs := (hpre.eq_of_length (by omega)).symm
    refine ⟨heq, List.rdropWhile_eq_self_iff.1 ?_⟩
    rw [trim, heq] at h
    exact h
  · rintro ⟨hfirst, hlast⟩
    rw [trim, hfirst]
    exact List.rdropWhile_eq_self_iff.2 hlast

/-- Dropping blanks from the end stops at a front that does not end with one. -/
theorem rdropWhile_append {front : List Char} (hne : front ≠ [])
    (hlast : isBlank (front.getLast hne) = false) (rest : List Char) :
    (front ++ rest).rdropWhile isBlank = front ++ rest.rdropWhile isBlank := by
  induction rest using List.reverseRecOn with
  | nil =>
    rw [List.rdropWhile_nil, List.append_nil, List.rdropWhile_eq_self_iff]
    intro _
    rw [hlast]
    exact Bool.false_ne_true
  | append_singleton rest c ih =>
    rw [← List.append_assoc, List.rdropWhile_concat, List.rdropWhile_concat]
    split
    · exact ih
    · rw [List.append_assoc]

/-- Trimming stops at a front that has no blanks at its ends. -/
theorem trim_append {front : List Char} (hne : front ≠ [])
    (hfirst : isBlank (front.head hne) = false) (hlast : isBlank (front.getLast hne) = false)
    (rest : List Char) : trim (front ++ rest) = front ++ rest.rdropWhile isBlank := by
  have hdrop : (front ++ rest).dropWhile isBlank = front ++ rest := by
    cases front with
    | nil => exact absurd rfl hne
    | cons c cs => rw [List.cons_append, List.dropWhile_cons_of_neg (by simpa using hfirst)]
  rw [trim, hdrop]
  exact rdropWhile_append hne hlast rest

/-- A text without blanks stays as it is when trimmed. -/
theorem trim_of_not_isBlank {cs : List Char} (h : ∀ c ∈ cs, isBlank c = false) : trim cs = cs := by
  refine trim_eq_self_iff.2 ⟨fun hne => ?_, fun hne => ?_⟩
  · rw [h _ (List.head_mem hne)]
    exact Bool.false_ne_true
  · rw [h _ (List.getLast_mem hne)]
    exact Bool.false_ne_true

/-- Leaving out the first elements that are left out anyway. -/
private theorem filter_not_dropWhile {α : Type} (p : α → Bool) (as : List α) :
    (as.dropWhile p).filter (fun a => !p a) = as.filter fun a => !p a := by
  induction as with
  | nil => rfl
  | cons a as ih =>
    cases ha : p a with
    | true => rw [List.dropWhile_cons_of_pos ha, List.filter_cons_of_neg (by simp [ha]), ih]
    | false => rw [List.dropWhile_cons_of_neg (by simp [ha])]

/-- Dropping all blanks also drops those at the ends. -/
theorem dropBlanks_trim (cs : List Char) : dropBlanks (trim cs) = dropBlanks cs := by
  rw [dropBlanks, trim, List.filter_reverse, filter_not_dropWhile, List.filter_reverse,
    List.reverse_reverse, filter_not_dropWhile]
  rfl

/-- Nothing is left of a text exactly if it has blanks only. -/
theorem trim_eq_nil_iff {cs : List Char} : trim cs = [] ↔ ∀ c ∈ cs, isBlank c = true := by
  refine ⟨fun h => ?_, trim_eq_nil_of_all⟩
  have hdrop := dropBlanks_trim cs
  rw [h] at hdrop
  simpa using List.filter_eq_nil_iff.1 hdrop.symm

/-- A text is what trimming leaves, between blanks. -/
theorem exists_eq_append_trim (cs : List Char) :
    ∃ front back, cs = front ++ (trim cs ++ back) ∧ (∀ c ∈ front, isBlank c = true) ∧
      ∀ c ∈ back, isBlank c = true := by
  refine ⟨cs.takeWhile isBlank, (cs.dropWhile isBlank).rtakeWhile isBlank, ?_, fun c hc => ?_,
    fun c hc => ?_⟩
  · change cs = _ ++ ((cs.dropWhile isBlank).rdropWhile isBlank ++ _)
    rw [List.rdropWhile, List.rtakeWhile, ← List.reverse_append, List.takeWhile_append_dropWhile,
      List.reverse_reverse, List.takeWhile_append_dropWhile]
  · exact List.mem_takeWhile_imp hc
  · exact List.mem_takeWhile_imp (List.mem_reverse.1 hc)

/-- Blanks in front do not matter to what trimming leaves. -/
theorem trim_blanks_append {front : List Char} (hfront : ∀ c ∈ front, isBlank c = true)
    (cs : List Char) : trim (front ++ cs) = trim cs := by
  rw [trim, List.dropWhile_append_of_pos hfront, trim]

/-- Blanks at the end do not matter to what trimming leaves. -/
theorem trim_append_blanks {back : List Char} (hback : ∀ c ∈ back, isBlank c = true)
    (cs : List Char) : trim (cs ++ back) = trim cs := by
  have hreverse : ∀ c ∈ back.reverse, isBlank c = true := fun c hc =>
    hback c (List.mem_reverse.1 hc)
  rw [trim, List.dropWhile_append]
  split
  · next hempty =>
    rw [trim, List.isEmpty_iff.1 hempty, List.dropWhile_eq_nil_iff.2 hback]
  · rw [List.reverse_append, List.dropWhile_append_of_pos hreverse, trim]

/-- Trimming a text again does nothing. -/
theorem trim_trim (cs : List Char) : trim (trim cs) = trim cs := by
  have hdrop : (trim cs).dropWhile isBlank = trim cs := by
    refine List.dropWhile_eq_self_iff.2 fun hpos => ?_
    -- The first character is the one at which blanks in front were no longer dropped.
    have hpre : trim cs <+: cs.dropWhile isBlank := List.rdropWhile_prefix _ _
    have hfirst := List.dropWhile_get_zero_not isBlank cs (hpos.trans_le hpre.length_le)
    rw [List.get_eq_getElem, ← hpre.getElem hpos] at hfirst
    simpa using hfirst
  rw [trim, hdrop]
  exact List.rdropWhile_idempotent isBlank (cs.dropWhile isBlank)

/-- Dropping all blanks leaves what is written between them. -/
theorem dropBlanks_between {front core back : List Char} (hfront : ∀ c ∈ front, isBlank c = true)
    (hback : ∀ c ∈ back, isBlank c = true) (hcore : ∀ c ∈ core, isBlank c = false) :
    dropBlanks (front ++ (core ++ back)) = core := by
  have hnone : ∀ {cs : List Char}, (∀ c ∈ cs, isBlank c = true) → dropBlanks cs = [] := fun h =>
    List.filter_eq_nil_iff.2 fun c hc => by simp [h c hc]
  have hall : dropBlanks core = core := List.filter_eq_self.2 fun c hc => by simp [hcore c hc]
  rw [dropBlanks, List.filter_append, List.filter_append, ← dropBlanks, ← dropBlanks, ← dropBlanks,
    hnone hfront, hnone hback, hall, List.nil_append, List.append_nil]

/-- A front without separators belongs to the first part. -/
theorem cutAt_append {separates : Char → Bool} {front rest part : List Char}
    {parts : List (List Char)} (hfront : ∀ c ∈ front, separates c = false)
    (hrest : cutAt separates rest = part :: parts) :
    cutAt separates (front ++ rest) = (front ++ part) :: parts := by
  induction front with
  | nil => exact hrest
  | cons c cs ih =>
    rw [List.forall_mem_cons] at hfront
    rw [List.cons_append, cutAt, hfront.1, if_neg Bool.false_ne_true, ih hfront.2]
    rfl

/-- A text without separators is not cut. -/
theorem cutAt_eq_singleton {separates : Char → Bool} {cs : List Char}
    (h : ∀ c ∈ cs, separates c = false) : cutAt separates cs = [cs] := by
  have hcut := cutAt_append h (rfl : cutAt separates [] = [[]])
  rwa [List.append_nil] at hcut

/-- A text is cut at a separator, and then its two sides are. -/
theorem cutAt_separator {separates : Char → Bool} {c : Char} (hc : separates c = true)
    (front back : List Char) :
    cutAt separates (front ++ c :: back) = cutAt separates front ++ cutAt separates back := by
  induction front with
  | nil => simp [cutAt, hc]
  | cons first front ih =>
    rw [List.cons_append, cutAt, cutAt, ih]
    split
    · rfl
    · cases hcut : cutAt separates front with
      | nil => exact absurd hcut (cutAt_ne_nil _ _)
      | cons part parts => rfl

/-- A back without separators belongs to the last part. -/
theorem exists_cutAt_append {separates : Char → Bool} {back : List Char}
    (h : ∀ c ∈ back, separates c = false) (cs : List Char) :
    ∃ parts last, cutAt separates cs = parts ++ [last] ∧
      cutAt separates (cs ++ back) = parts ++ [last ++ back] := by
  induction cs with
  | nil => exact ⟨[], [], rfl, cutAt_eq_singleton h⟩
  | cons c cs ih =>
    obtain ⟨parts, last, hcut, hcut'⟩ := ih
    rw [List.cons_append, cutAt, cutAt, hcut, hcut']
    by_cases hc : separates c = true
    · exact ⟨[] :: parts, last, by rw [if_pos hc]; rfl, by rw [if_pos hc]; rfl⟩
    · rw [if_neg hc, if_neg hc]
      cases parts with
      | nil => exact ⟨[], c :: last, rfl, rfl⟩
      | cons part parts => exact ⟨(c :: part) :: parts, last, rfl, rfl⟩

/-- Either nothing separates, or the first part stands in front of the first separator. -/
theorem of_cutAt_eq_cons {separates : Char → Bool} {cs part : List Char}
    {parts : List (List Char)} (h : cutAt separates cs = part :: parts) :
    parts = [] ∧ cs = part ∨
      ∃ c rest, cs = part ++ c :: rest ∧ separates c = true ∧ cutAt separates rest = parts := by
  induction cs generalizing part with
  | nil =>
    rw [cutAt, List.cons.injEq] at h
    exact .inl ⟨h.2.symm, h.1⟩
  | cons c cs ih =>
    rw [cutAt] at h
    split at h
    · next hc =>
      rw [List.cons.injEq] at h
      exact .inr ⟨c, cs, by rw [← h.1]; rfl, hc, h.2⟩
    · obtain ⟨first, rest, hcut⟩ := List.exists_cons_of_ne_nil (cutAt_ne_nil separates cs)
      rw [hcut, List.cons.injEq] at h
      obtain ⟨rfl, rfl⟩ := h
      obtain ⟨hrest, rfl⟩ | ⟨d, tail, rfl, hd, htail⟩ := ih hcut
      · exact .inl ⟨hrest, rfl⟩
      · exact .inr ⟨d, tail, rfl, hd, htail⟩

/-- Where parts are trimmed the whole need not be. -/
theorem map_trim_cutAt_trim {separates : Char → Bool}
    (h : ∀ c, isBlank c = true → separates c = false) (cs : List Char) :
    (cutAt separates (trim cs)).map trim = (cutAt separates cs).map trim := by
  obtain ⟨front, back, heq, hfront, hback⟩ := exists_eq_append_trim cs
  obtain ⟨parts, last, hcut, hcut'⟩ :=
    exists_cutAt_append (fun c hc => h c (hback c hc)) (trim cs)
  conv_rhs => rw [heq]
  cases parts with
  | nil =>
    rw [cutAt_append (fun c hc => h c (hfront c hc)) hcut', hcut]
    simp [trim_blanks_append hfront, trim_append_blanks hback]
  | cons part parts =>
    rw [cutAt_append (fun c hc => h c (hfront c hc)) hcut', hcut]
    simp [trim_blanks_append hfront, trim_append_blanks hback]

/-- The parts are made of the characters that do not separate. -/
theorem of_mem_cutAt {separates : Char → Bool} {cs part : List Char}
    (hpart : part ∈ cutAt separates cs) : ∀ c ∈ part, c ∈ cs ∧ separates c = false := by
  induction cs generalizing part with
  | nil =>
    rw [cutAt, List.mem_singleton] at hpart
    simp [hpart]
  | cons first cs ih =>
    have hrest : ∀ {part}, part ∈ cutAt separates cs →
        ∀ c ∈ part, c ∈ first :: cs ∧ separates c = false := fun hmem c hc =>
      (ih hmem c hc).imp_left (List.mem_cons_of_mem _)
    -- The first character ends an empty part, or belongs to the first part of the rest.
    rw [cutAt] at hpart
    split at hpart
    · rw [List.mem_cons] at hpart
      obtain rfl | hpart := hpart
      · simp
      · exact hrest hpart
    · next hfirst =>
      split at hpart
      · next hnil => exact absurd hnil (cutAt_ne_nil _ _)
      · next head parts hcut =>
        rw [hcut] at hrest
        rw [List.mem_cons] at hpart
        obtain rfl | hpart := hpart
        · rw [List.forall_mem_cons]
          exact ⟨⟨List.mem_cons_self, by simpa using hfirst⟩, hrest List.mem_cons_self⟩
        · exact hrest (List.mem_cons_of_mem _ hpart)

/-- The first part stands at the front. -/
theorem prefix_of_cutAt {separates : Char → Bool} {cs part : List Char}
    {parts : List (List Char)} (h : cutAt separates cs = part :: parts) : part <+: cs := by
  induction cs generalizing part parts with
  | nil =>
    rw [cutAt, List.cons.injEq] at h
    obtain ⟨rfl, -⟩ := h
    exact List.nil_prefix
  | cons c cs ih =>
    rw [cutAt] at h
    split at h
    · rw [List.cons.injEq] at h
      obtain ⟨rfl, -⟩ := h
      exact List.nil_prefix
    · split at h
      · next hnil => exact absurd hnil (cutAt_ne_nil separates cs)
      · next first rest hcut =>
        rw [List.cons.injEq] at h
        obtain ⟨rfl, -⟩ := h
        rw [List.cons_prefix_cons]
        exact ⟨rfl, ih hcut⟩

end GridStyle.Text
