import GridStyle.Expansion.Text
import GridStyle.Function.Builtin
import GridStyle.Proofs.Perform
import GridStyle.Proofs.TopLevel

/-!
# Value Lists

A text without a separator at its top level is one piece (`Nesting.Whole`). What stands between two
separators at the top level is such a piece, and trimming leaves it one, so that a part of a split
is not split any further (`split_eq_singleton_of_mem`).

A text can be an item of a value list if it is a trimmed piece and leaves the scan at the top level
(`IsListPart`). Joining such items with commas and splitting the list gives the items back
(`splitGroup_intercalate`), and an argument that is one such list gives its items to the function
(`splitting_inverts_joining`).
-/

namespace GridStyle.Text

namespace Nesting

/-- Where a scan stands behind a text. -/
def scan (escapes : Bool) (s : Nesting) (cs : List Char) : Nesting :=
  cs.foldl (advance escapes) s

/-- From a place on, no separator of a text is at the top level. -/
def Whole (cutting : Cutting) (s : Nesting) (cs : List Char) : Prop :=
  s.SeparatesAt cutting (fun s => !s.atTop) cs

instance (cutting : Cutting) (s : Nesting) (cs : List Char) : Decidable (s.Whole cutting cs) :=
  inferInstanceAs (Decidable (SeparatesAt cutting _ s cs))

variable {cutting : Cutting} {s : Nesting}

theorem scan_append (escapes : Bool) (s : Nesting) (front back : List Char) :
    s.scan escapes (front ++ back) = (s.scan escapes front).scan escapes back :=
  List.foldl_append

/-- Characters that are no marks leave a scan where it is. -/
theorem scan_eq_self {cs : List Char} (h : ∀ c ∈ cs, c ∉ marks) {s : Nesting}
    (hs : s.escaped = false) (escapes : Bool) : s.scan escapes cs = s := by
  induction cs with
  | nil => rfl
  | cons c cs ih =>
    rw [List.forall_mem_cons] at h
    have hadvance : s.advance escapes c = s := by rw [advance_of_not_mem_marks h.1, ← hs]
    rw [scan, List.foldl_cons, hadvance]
    exact ih h.2

/-- Nothing is opened by characters that are no marks. -/
theorem scan_of_not_mem_marks {cs : List Char} (h : ∀ c ∈ cs, c ∉ marks) (escapes : Bool) :
    scan escapes {} cs = {} :=
  scan_eq_self h rfl escapes

/-- The separators of two texts in a row. -/
theorem separatesAt_append (p : Nesting → Bool) (front back : List Char) :
    s.SeparatesAt cutting p (front ++ back) ↔
      s.SeparatesAt cutting p front ∧
        (s.scan cutting.escapes front).SeparatesAt cutting p back := by
  induction front generalizing s with
  | nil => exact (and_iff_right trivial).symm
  | cons c front ih =>
    rw [List.cons_append, SeparatesAt, SeparatesAt, ih, and_assoc]
    rfl

/-- A text without separators is one piece. -/
theorem whole_of_not_separates {cs : List Char} (h : ∀ c ∈ cs, cutting.separates c = false) :
    s.Whole cutting cs := by
  induction cs generalizing s with
  | nil => trivial
  | cons c cs ih =>
    rw [List.forall_mem_cons] at h
    exact ⟨fun hc => absurd (h.1.symm.trans hc) (by decide), ih h.2⟩

/-- A piece that is trimmed is still one. -/
theorem Whole.trim {cs : List Char} (h : Whole cutting {} cs) : Whole cutting {} (trim cs) := by
  obtain ⟨front, back, heq, hfront, -⟩ := exists_eq_append_trim cs
  rw [heq, Whole, separatesAt_append,
    scan_of_not_mem_marks fun c hc => not_mem_marks_of_isBlank (hfront c hc),
    separatesAt_append] at h
  exact h.2.1

end Nesting

open Nesting

/-! ### Pieces -/

section Pieces

variable {cutting : Cutting} {s : Nesting}

/-- A piece at the front belongs to the first part. -/
theorem cutTop_append {front : List Char} (h : s.Whole cutting front) (back : List Char) :
    cutTop cutting s (front ++ back) =
      (cutTop cutting (s.scan cutting.escapes front) back).modifyHead (front ++ ·) := by
  induction front generalizing s with
  | nil =>
    obtain ⟨part, parts, hcut⟩ := exists_cutTop_eq cutting s back
    rw [List.nil_append, scan, List.foldl_nil, hcut]
    rfl
  | cons c front ih =>
    have hnot : ¬ (s.atTop && cutting.separates c) = true := by
      intro hcut
      rw [Bool.and_eq_true] at hcut
      exact absurd (h.1 hcut.2) (by simp [hcut.1])
    rw [List.cons_append, cutTop, if_neg hnot, ih h.2, List.modifyHead_modifyHead]
    rfl

/-- The parts between the separators at the top level are pieces. -/
theorem whole_of_cutTop {cs part : List Char} {parts : List (List Char)}
    (hcut : cutTop cutting s cs = part :: parts) :
    s.Whole cutting part ∧ ∀ part ∈ parts, Whole cutting {} part := by
  induction cs generalizing s part parts with
  | nil =>
    rw [cutTop, List.cons.injEq] at hcut
    obtain ⟨rfl, rfl⟩ := hcut
    exact ⟨trivial, by simp⟩
  | cons c cs ih =>
    rw [cutTop] at hcut
    split at hcut
    · next hc =>
      -- Behind a separator at the top level the scan is at the start.
      rw [Bool.and_eq_true] at hc
      obtain rfl := eq_start_of_atTop hc.1
      rw [List.cons.injEq] at hcut
      obtain ⟨rfl, rfl⟩ := hcut
      obtain ⟨first, rest, hrest⟩ := exists_cutTop_eq cutting {} cs
      rw [hrest, List.forall_mem_cons]
      exact ⟨trivial, ih hrest⟩
    · next hc =>
      obtain ⟨first, rest, hrest⟩ := exists_cutTop_eq cutting (s.advance cutting.escapes c) cs
      rw [hrest, List.modifyHead_cons, List.cons.injEq] at hcut
      obtain ⟨rfl, rfl⟩ := hcut
      refine ⟨⟨fun hsep => ?_, (ih hrest).1⟩, (ih hrest).2⟩
      simpa [hsep] using hc

/-- A part that is not empty and has no blanks at its ends stays as it is. -/
theorem tidy_singleton {cs : List Char} (hne : cs ≠ []) (htrim : trim cs = cs) :
    tidy [cs] = [cs] := by
  rw [tidy, List.map_singleton, htrim, List.filter_singleton]
  simp [hne]

/-- A piece is not split. -/
theorem split_of_whole {cs : List Char} (h : Whole cutting {} cs) :
    split cutting cs = tidy [cs] := by
  have hcut := cutTop_append h []
  rw [List.append_nil, cutTop, List.modifyHead_cons, List.append_nil] at hcut
  rw [split_eq, hcut]

/-- A separator behind a piece that ends at the top level splits. -/
theorem split_append_separator {front : List Char} (h : Whole cutting {} front)
    (htop : (scan cutting.escapes {} front).atTop = true) {c : Char}
    (hc : cutting.separates c = true) (back : List Char) :
    split cutting (front ++ c :: back) = tidy [front] ++ split cutting back := by
  rw [split_eq, cutTop_append h, cutTop, htop, hc, Bool.and_self, if_pos rfl,
    eq_start_of_atTop htop, List.modifyHead_cons, List.append_nil, tidy_cons, split_eq]

/-- Blanks in front that do not separate are trimmed. -/
theorem split_blanks_append {front : List Char}
    (h : ∀ c ∈ front, isBlank c = true ∧ cutting.separates c = false) (back : List Char) :
    split cutting (front ++ back) = split cutting back := by
  have hwhole : Whole cutting {} front := whole_of_not_separates fun c hc => (h c hc).2
  obtain ⟨part, parts, hcut⟩ := exists_cutTop_eq cutting {} back
  rw [split_eq, cutTop_append hwhole,
    scan_of_not_mem_marks fun c hc => not_mem_marks_of_isBlank (h c hc).1, hcut, split_eq, hcut,
    List.modifyHead_cons, tidy_cons, tidy_cons part, tidy, List.map_singleton,
    trim_blanks_append fun c hc => (h c hc).1]
  rfl

/-- A part that a split can leave: it is not empty, has no blanks at its ends and no separator at
its top level. -/
structure IsPart (cutting : Cutting) (cs : List Char) : Prop where
  ne_nil : cs ≠ []
  trimmed : trim cs = cs
  whole : Whole cutting {} cs

theorem IsPart.tidy_eq {cs : List Char} (h : IsPart cutting cs) : tidy [cs] = [cs] :=
  tidy_singleton h.ne_nil h.trimmed

theorem IsPart.split_eq {cs : List Char} (h : IsPart cutting cs) : split cutting cs = [cs] := by
  rw [split_of_whole h.whole, h.tidy_eq]

theorem isPart_of_mem_split {cs part : List Char} (h : part ∈ split cutting cs) :
    IsPart cutting part := by
  rw [Text.split_eq, tidy, List.mem_filter, List.mem_map] at h
  obtain ⟨⟨whole, hmem, rfl⟩, hne⟩ := h
  -- Trimming keeps a piece whole, so it is enough to look at the part before it was trimmed.
  have hwhole : Whole cutting {} whole := by
    obtain ⟨first, rest, hcut⟩ := exists_cutTop_eq cutting {} cs
    have hparts := whole_of_cutTop hcut
    rw [hcut] at hmem
    exact (List.forall_mem_cons (p := Whole cutting {})).2 hparts whole hmem
  exact ⟨of_decide_eq_true hne, trim_trim whole, hwhole.trim⟩

/-- A part of a split is not empty, has no blanks at its ends and is not split any further. -/
theorem split_eq_singleton_of_mem {cs part : List Char} (h : part ∈ split cutting cs) :
    part ≠ [] ∧ trim part = part ∧ split cutting part = [part] :=
  have hpart := isPart_of_mem_split h
  ⟨hpart.ne_nil, hpart.trimmed, hpart.split_eq⟩

/-- Splitting gives the parts that were joined with a separator and blanks behind it, if all parts
but the last end at the top level. -/
theorem split_intercalate {c : Char} (hc : cutting.separates c = true) {blanks : List Char}
    (hblanks : ∀ b ∈ blanks, isBlank b = true ∧ cutting.separates b = false)
    {parts : List (List Char)} (hparts : ∀ part ∈ parts, IsPart cutting part)
    (htop : ∀ part ∈ parts.dropLast, (scan cutting.escapes {} part).atTop = true) :
    split cutting ((c :: blanks).intercalate parts) = parts := by
  induction parts with
  | nil => rfl
  | cons part rest ih =>
    rw [List.forall_mem_cons] at hparts
    cases rest with
    | nil => rw [List.intercalate_singleton, hparts.1.split_eq]
    | cons next rest =>
      rw [List.dropLast_cons_cons, List.forall_mem_cons] at htop
      rw [List.intercalate_cons_cons, List.append_assoc, List.cons_append,
        split_append_separator hparts.1.whole htop.1 hc, split_blanks_append hblanks,
        ih hparts.2 htop.2, hparts.1.tidy_eq]
      rfl

end Pieces

/-! ### Items -/

/-- A text that can be an item of a value list: it is not empty, has no blanks at its ends and no
comma at its top level, and what follows it is at the top level. -/
structure IsListPart (text : String) : Prop where
  /-- There is something. -/
  ne_empty : text ≠ ""
  /-- No blanks are at the ends. -/
  trimmed : trim text.toList = text.toList
  /-- No comma is at the top level. -/
  whole : Whole atCommas {} text.toList
  /-- In the end no quote and no parenthesis is open, and nothing is protected. -/
  atTop : (scan true {} text.toList).atTop = true

instance : DecidablePred IsListPart := fun text =>
  decidable_of_iff (text ≠ "" ∧ trim text.toList = text.toList ∧ Whole atCommas {} text.toList ∧
      (scan true {} text.toList).atTop = true)
    ⟨fun h => ⟨h.1, h.2.1, h.2.2.1, h.2.2.2⟩, fun h => ⟨h.1, h.2, h.3, h.4⟩⟩

theorem IsListPart.isPart {text : String} (h : IsListPart text) : IsPart atCommas text.toList :=
  ⟨fun hnil => h.ne_empty (String.toList_eq_nil_iff.1 hnil), h.trimmed, h.whole⟩

/-- Splitting a value list gives the items that were joined with a comma and some blanks. -/
theorem splitGroup_intercalate {items : List String} (h : ∀ item ∈ items, IsListPart item)
    {blanks : List Char} (hblanks : ∀ c ∈ blanks, isBlank c = true) :
    splitGroup (String.intercalate (String.ofList (',' :: blanks)) items) = items := by
  have hskip : ∀ c ∈ blanks, isBlank c = true ∧ atCommas.separates c = false := by
    intro c hc
    refine ⟨hblanks c hc, Bool.eq_false_iff.2 fun hsep => ?_⟩
    have hnot := not_isBlank_of_atCommas hsep
    rw [hblanks c hc] at hnot
    exact absurd hnot (by decide)
  rw [splitGroup, String.toList_intercalate, String.toList_ofList, split_intercalate rfl hskip,
    List.map_map]
  · simp
  · exact List.forall_mem_map.2 fun item hitem => (h item hitem).isPart
  · rw [← List.map_dropLast]
    exact List.forall_mem_map.2 fun item hitem => (h item (List.dropLast_subset _ hitem)).atTop

end GridStyle.Text

namespace GridStyle

open Text

/-! ### Arguments -/

section Arguments

variable {functions : FunctionRegistry} {cell : Cell} {extra : List String}

/-- The inputs of arguments in a row. -/
theorem argumentInputs_append (before after : List Argument) :
    argumentInputs functions cell (before ++ after) extra = do
      let first ← argumentInputs functions cell before extra
      let last ← argumentInputs functions cell after extra
      return first ++ last := by
  induction before with
  | nil => simp [argumentInputs]
  | cons argument before ih =>
    obtain ⟨cluster, nodes⟩ := argument
    rw [List.cons_append, argumentInputs, ih, argumentInputs]
    simp only [bind_assoc, pure_bind, List.append_assoc]

/-- An argument of one node gives an eager function the parts of the node's text, after the inputs
of the arguments in front of it and before those of the arguments behind it. -/
theorem perform_nodeText_spread {name : String} {f : EagerFunction}
    (hfind : functions.find? (Selector.stripMarker name) = some (.eager f))
    {before after : List Argument} {node : ValueNode} {text : String} {first last : List String}
    {c c₁ c₂ c₃ : Context}
    (hbefore : (argumentInputs functions cell before extra).perform c = (.ok first, c₁))
    (hnode : (nodeText functions cell node extra).perform c₁ = (.ok text, c₂))
    (hafter : (argumentInputs functions cell after extra).perform c₂ = (.ok last, c₃))
    (position : Nat) :
    (nodeText functions cell (.call name (before ++ ⟨false, [node]⟩ :: after) position)
        extra).perform c =
      ((·.getD "") <$> f ⟨cell, position, extra⟩ (first ++ splitGroup text ++ last)).perform
        c₃ := by
  have htexts : nodeTexts functions cell [node] extra = do
      let text ← nodeText functions cell node extra
      return [text] := by
    simp [nodeTexts]
  -- The three parts run in a row, each on the context that the one in front of it leaves.
  have hinputs : (argumentInputs functions cell (before ++ ⟨false, [node]⟩ :: after) extra).perform
      c = (.ok (first ++ splitGroup text ++ last), c₃) := by
    rw [argumentInputs_append, Action.perform_bind, hbefore, argumentInputs, htexts]
    simp only [bind_assoc, pure_bind]
    rw [Action.perform_bind, hnode]
    simp only
    rw [Action.perform_bind, hafter, List.append_assoc]
    rfl
  rw [nodeText, hfind]
  simp only
  rw [Action.perform_bind, hinputs, map_eq_pure_bind]

end Arguments

/-- Splitting a value list gives the items that were joined, and an argument that is one node with
the text of the list, such as a call that returns it, is passed on as these items. In any text, the
parts are trimmed, not empty and not split any further. -/
theorem splitting_inverts_joining :
    (∀ items : List String, (∀ item ∈ items, IsListPart item) → ∀ separator ∈ [", ", ","],
      splitGroup (String.intercalate separator items) = items ∧
      ∀ (functions : FunctionRegistry) (cell : Cell) (extra : List String) (name : String)
        (f : EagerFunction), functions.find? (Selector.stripMarker name) = some (.eager f) →
      ∀ (before after : List Argument) (node : ValueNode) (first last : List String)
        (c c₁ c₂ c₃ : Context),
        (argumentInputs functions cell before extra).perform c = (.ok first, c₁) →
        (nodeText functions cell node extra).perform c₁ =
          (.ok (String.intercalate separator items), c₂) →
        (argumentInputs functions cell after extra).perform c₂ = (.ok last, c₃) →
      ∀ position, (nodeText functions cell
          (.call name (before ++ ⟨false, [node]⟩ :: after) position) extra).perform c =
        ((·.getD "") <$> f ⟨cell, position, extra⟩ (first ++ items ++ last)).perform c₃) ∧
    ∀ text, ∀ part ∈ splitGroup text,
      part ≠ "" ∧ trimText part = part ∧ splitGroup part = [part] := by
  refine ⟨fun items hitems separator hseparator => ?_, fun text part hpart => ?_⟩
  · -- Both separators are a comma with blanks behind it.
    obtain ⟨blanks, hblanks, rfl⟩ : ∃ blanks : List Char, (∀ c ∈ blanks, isBlank c = true) ∧
        separator = String.ofList (',' :: blanks) := by
      simp only [List.mem_cons, List.not_mem_nil, or_false] at hseparator
      rcases hseparator with rfl | rfl
      · exact ⟨[' '], forall_mem_of_all (by decide), rfl⟩
      · exact ⟨[], by simp, rfl⟩
    have hsplit := splitGroup_intercalate hitems hblanks
    refine ⟨hsplit, fun functions cell extra name f hfind before after node first last c c₁ c₂ c₃
      hbefore hnode hafter position => ?_⟩
    rw [perform_nodeText_spread hfind hbefore hnode hafter, hsplit]
  · rw [splitGroup, List.mem_map] at hpart
    obtain ⟨cs, hcs, rfl⟩ := hpart
    obtain ⟨hne, htrim, hsplit⟩ := split_eq_singleton_of_mem hcs
    refine ⟨by simpa using hne, ?_, ?_⟩
    · rw [trimText, String.toList_ofList, htrim]
    · rw [splitGroup, String.toList_ofList, hsplit, List.map_singleton]

/-- The functions of the library with one that returns a list. -/
def FunctionRegistry.withList (text : String) : FunctionRegistry :=
  builtin.registerEager "list" fun _ _ => return some text

/-- A list with commas in parentheses, in quotes and behind a backslash reaches a choice behind an
input of its own. -/
theorem splitting_inverts_joining_nested :
    (∀ item ∈ ["rgb(1, 2)", "'a, b'", "x\\, y"], IsListPart item) ∧
    splitGroup "rgb(1, 2), 'a, b', x\\, y" = ["rgb(1, 2)", "'a, b'", "x\\, y"] ∧
    (∀ c, (nodeText (.withList "rgb(1, 2), 'a, b', x\\, y") Cell.discovery
        (.call "@pick-n" [⟨false, [.text "first"]⟩, ⟨false, [.call "@list" [] 1]⟩] 0) []).perform c =
      ((·.getD "") <$> Builtin.pickNext ⟨Cell.discovery, 0, []⟩
        ["first", "rgb(1, 2)", "'a, b'", "x\\, y"]).perform c) := by
  have hitems : ∀ item ∈ ["rgb(1, 2)", "'a, b'", "x\\, y"], IsListPart item := by decide
  have hjoined := splitting_inverts_joining.1 _ hitems ", " (by decide)
  refine ⟨hitems, hjoined.1, fun c => ?_⟩
  exact hjoined.2 (.withList "rgb(1, 2), 'a, b', x\\, y") Cell.discovery [] "@pick-n"
    Builtin.pickNext rfl [⟨false, [.text "first"]⟩] [] (.call "@list" [] 1) ["first"] [] c c c c rfl
    rfl rfl 0

end GridStyle
