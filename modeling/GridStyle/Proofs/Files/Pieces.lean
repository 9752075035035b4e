import GridStyle.Files.Path
import GridStyle.Proofs.Trimming

/-!
# Pieces of Paths

Paths are looked up piece by piece, and so are the operations on paths described here. A path that
ends in a name (`Path.EndsIn`) has pieces in front of the name and behind it only pieces that are no
components. Its directory has the same pieces in front, up to such idle ones (`Path.parent?_cases`),
and joining a name puts one more piece at the end (`Path.pieces_join`).
-/

namespace GridStyle.Path

/-! ### Cutting and joining -/

theorem pieces_ne_nil (p : Path) : p.pieces ≠ [] := by
  rw [pieces, ne_eq, List.map_eq_nil_iff]
  exact Text.cutAt_ne_nil _ _

/-- The pieces are made of the characters that are no slashes. -/
theorem of_mem_pieces {p : Path} {piece : String} (h : piece ∈ p.pieces) :
    ∀ c ∈ piece.toList, c ∈ p.text.toList ∧ c ≠ '/' := by
  rw [pieces, List.mem_map] at h
  obtain ⟨part, hpart, rfl⟩ := h
  intro c hc
  rw [String.toList_ofList] at hc
  exact (Text.of_mem_cutAt hpart c hc).imp_right beq_eq_false_iff_ne.1

theorem not_mem_of_mem_pieces {p : Path} {piece : String} (h : piece ∈ p.pieces) :
    '/' ∉ piece.toList :=
  fun hslash => (of_mem_pieces h '/' hslash).2 rfl

/-- A name is its only piece. -/
theorem pieces_name {name : String} (h : '/' ∉ name.toList) : (⟨name⟩ : Path).pieces = [name] := by
  rw [pieces, Text.cutAt_eq_singleton]
  · rw [List.map_singleton, String.ofList_toList]
  · intro c hc
    rw [beq_eq_false_iff_ne]
    rintro rfl
    exact h hc

theorem pieces_slash (front back : String) :
    (⟨front ++ "/" ++ back⟩ : Path).pieces =
      (⟨front⟩ : Path).pieces ++ (⟨back⟩ : Path).pieces := by
  have htext : (front ++ "/" ++ back).toList = front.toList ++ '/' :: back.toList := by
    rw [String.toList_append, String.toList_append, List.append_assoc]
    rfl
  rw [pieces, htext, Text.cutAt_separator rfl, List.map_append]
  rfl

theorem pieces_intercalate {ps : List String} (hne : ps ≠ [])
    (h : ∀ piece ∈ ps, '/' ∉ piece.toList) :
    (⟨String.intercalate "/" ps⟩ : Path).pieces = ps := by
  induction ps with
  | nil => exact absurd rfl hne
  | cons first rest ih =>
    rw [List.forall_mem_cons] at h
    cases rest with
    | nil => rw [String.intercalate_singleton, pieces_name h.1]
    | cons second rest =>
      rw [String.intercalate_cons_cons, pieces_slash, pieces_name h.1, ih (by simp) h.2]
      rfl

/-- Only the empty path has an empty piece and no other one. -/
theorem isEmpty_iff_pieces {p : Path} : p.isEmpty = true ↔ p.pieces = [""] := by
  rw [isEmpty, String.isEmpty_iff, pieces, ← String.toList_eq_nil_iff]
  cases hcs : p.text.toList with
  | nil => simp [Text.cutAt]
  | cons c cs =>
    rw [Text.cutAt]
    split
    · simp [Text.cutAt_ne_nil]
    · split <;> simp

/-- An absolute path has an empty piece in front of others. -/
theorem isAbsolute_iff {p : Path} :
    p.isAbsolute = true ↔ ∃ rest, rest ≠ [] ∧ p.pieces = "" :: rest := by
  have hcut : ∀ cs : List Char, (Text.cutAt (· == '/') cs).map String.ofList ≠ [] := by
    intro cs
    rw [ne_eq, List.map_eq_nil_iff]
    exact Text.cutAt_ne_nil _ _
  rw [isAbsolute, pieces, decide_eq_true_eq]
  cases hcs : p.text.toList with
  | nil => simp [Text.cutAt]
  | cons c cs =>
    by_cases hc : c = '/'
    · subst hc
      rw [Text.cutAt, if_pos (beq_self_eq_true '/')]
      exact ⟨fun _ => ⟨_, hcut cs, rfl⟩, fun _ => rfl⟩
    · rw [Text.cutAt, if_neg (by simpa using hc)]
      split <;> simp [hc]

theorem isAbsolute_name {name : String} (h : '/' ∉ name.toList) :
    (⟨name⟩ : Path).isAbsolute = false := by
  rw [Bool.eq_false_iff, ne_eq, isAbsolute_iff, pieces_name h]
  rintro ⟨rest, hrest, heq⟩
  exact hrest (List.cons.inj heq).2.symm

theorem pieces_of_endsWithSlash {p : Path} (h : p.endsWithSlash = true) :
    ∃ front : String, p.text = front ++ "/" ∧ p.pieces = (⟨front⟩ : Path).pieces ++ [""] := by
  rw [endsWithSlash, decide_eq_true_eq, List.getLast?_eq_some_iff] at h
  obtain ⟨front, hfront⟩ := h
  have htext : p.text = String.ofList front ++ "/" := by
    apply String.toList_injective
    rw [hfront, String.toList_append, String.toList_ofList]
    rfl
  refine ⟨String.ofList front, htext, ?_⟩
  rw [show p = ⟨p.text⟩ from rfl, htext, ← String.append_empty (s := _ ++ "/"), pieces_slash]
  rfl

/-- Only the empty path and a path with a slash at its end have an empty piece there. -/
theorem endsWithSlash_of_getLast? {p : Path} (hempty : p.isEmpty = false)
    (h : p.pieces.getLast? = some "") : p.endsWithSlash = true := by
  by_cases hslash : '/' ∈ p.text.toList
  · -- The last piece is what is behind the last slash.
    obtain ⟨back, front, hreverse, hback⟩ :=
      List.eq_append_cons_of_mem (List.mem_reverse.2 hslash)
    have htext : p.text =
        String.ofList front.reverse ++ "/" ++ String.ofList back.reverse := by
      apply String.toList_injective
      rw [← List.reverse_reverse p.text.toList, hreverse]
      simp [String.toList_append]
    have hname : '/' ∉ (String.ofList back.reverse).toList := by simpa using hback
    rw [show p = ⟨p.text⟩ from rfl, htext, pieces_slash, pieces_name hname, List.getLast?_concat,
      Option.some.injEq] at h
    rw [h, String.append_empty] at htext
    rw [endsWithSlash, htext]
    simp [String.toList_append]
  · rw [show p = ⟨p.text⟩ from rfl, pieces_name hslash, List.getLast?_singleton,
      Option.some.injEq] at h
    simp [isEmpty, h] at hempty

/-- Every name that is joined is the last piece, in place of an empty one. -/
theorem exists_pieces_join {p : Path} (hp : p.isEmpty = false) :
    ∃ front, (p.pieces = front ∨ p.pieces = front ++ [""]) ∧
      ∀ name, '/' ∉ name.toList → (p.join ⟨name⟩).pieces = front ++ [name] := by
  by_cases hslash : p.endsWithSlash = true
  · obtain ⟨front, htext, hpieces⟩ := pieces_of_endsWithSlash hslash
    refine ⟨(⟨front⟩ : Path).pieces, .inr hpieces, fun name h => ?_⟩
    rw [join, isAbsolute_name h, if_neg Bool.false_ne_true, hslash, Bool.or_true, if_pos rfl, htext,
      pieces_slash, pieces_name h]
  · refine ⟨p.pieces, .inl rfl, fun name h => ?_⟩
    rw [join, isAbsolute_name h, if_neg Bool.false_ne_true, hp, Bool.false_or, if_neg hslash,
      pieces_slash, pieces_name h]

theorem pieces_join {p : Path} {name : String} (hp : p.isEmpty = false)
    (h : '/' ∉ name.toList) :
    ∃ front, (p.join ⟨name⟩).pieces = front ++ [name] ∧
      (p.pieces = front ∨ p.pieces = front ++ [""]) := by
  obtain ⟨front, hpieces, hjoin⟩ := exists_pieces_join hp
  exact ⟨front, hjoin name h, hpieces⟩

theorem isEmpty_join {p : Path} {name : String} (hp : p.isEmpty = false)
    (h : '/' ∉ name.toList) : (p.join ⟨name⟩).isEmpty = false := by
  obtain ⟨front, hjoin, hpieces⟩ := pieces_join hp h
  rw [Bool.eq_false_iff, ne_eq, isEmpty_iff_pieces] at hp ⊢
  rw [hjoin]
  intro hempty
  have hfront : front = [] := (List.append_inj' (hempty.trans (List.nil_append _).symm) rfl).1
  subst hfront
  exact hpieces.elim p.pieces_ne_nil hp

/-- A path does not become absolute or relative by joining a name. -/
theorem isAbsolute_join {p : Path} {name : String} (hp : p.isEmpty = false)
    (h : '/' ∉ name.toList) : (p.join ⟨name⟩).isAbsolute = p.isAbsolute := by
  have htext : ∀ back : String, (p.text ++ back).toList.head? = p.text.toList.head? := by
    intro back
    cases hcs : p.text.toList with
    | nil => simp [isEmpty, String.toList_eq_nil_iff.1 hcs] at hp
    | cons c cs => rw [String.toList_append, hcs]; rfl
  rw [join, isAbsolute_name h, if_neg Bool.false_ne_true, isAbsolute, isAbsolute]
  split
  · rw [htext]
  · rw [String.append_assoc, htext]

/-! ### The name at the end -/

/-- A name that an entry can have. -/
structure IsName (name : String) : Prop where
  notIdle : isIdle name = false
  notUp : name ≠ ".."
  noSlash : '/' ∉ name.toList

instance (name : String) : Decidable (IsName name) :=
  decidable_of_iff (isIdle name = false ∧ name ≠ ".." ∧ '/' ∉ name.toList)
    ⟨fun h => ⟨h.1, h.2.1, h.2.2⟩, fun h => ⟨h.notIdle, h.notUp, h.noSlash⟩⟩

theorem IsName.ne_empty {name : String} (h : IsName name) : name ≠ "" := by
  rintro rfl
  exact absurd h.notIdle (by decide)

/-- The pieces say nothing behind the first place of a path. -/
def AllIdle (ps : List String) : Prop := ∀ piece ∈ ps, isIdle piece = true

instance (ps : List String) : Decidable (AllIdle ps) :=
  inferInstanceAs (Decidable (∀ piece ∈ ps, isIdle piece = true))

/-- The last component of the path is a name, and these are the pieces in front of it. -/
def EndsIn (p : Path) (front : List String) (name : String) : Prop :=
  IsName name ∧ ∃ idle, AllIdle idle ∧ p.pieces = front ++ name :: idle

theorem ofPiece?_eq_name_iff {first : Bool} {piece name : String} :
    Component.ofPiece? first piece = some (.name name) ↔
      isIdle piece = false ∧ piece ≠ ".." ∧ piece = name := by
  unfold Component.ofPiece?
  split
  · simp [isIdle]
  · cases first <;> simp [isIdle]
  · simp
  · next hempty hpoint hup =>
    simp [isIdle, show piece ≠ "" from hempty, show piece ≠ "." from hpoint,
      show piece ≠ ".." from hup]

theorem ofPiece?_eq_none_iff {piece : String} :
    Component.ofPiece? false piece = none ↔ isIdle piece = true := by
  unfold Component.ofPiece?
  split
  · simp [isIdle]
  · simp [isIdle]
  · simp [isIdle]
  · next hempty hpoint hup =>
    simp [isIdle, show piece ≠ "" from hempty, show piece ≠ "." from hpoint]

/-- The components behind the first piece. -/
theorem getLast?_rest {rest : List String} {name : String} :
    (rest.filterMap (Component.ofPiece? false)).getLast? = some (.name name) ↔
      ∃ front idle, AllIdle idle ∧ rest = front ++ name :: idle ∧ isIdle name = false ∧
        name ≠ ".." := by
  rw [List.getLast?_filterMap, List.findSome?_eq_some_iff]
  constructor
  · rintro ⟨idle, piece, front, hrest, hpiece, hidle⟩
    obtain ⟨hnotIdle, hnotUp, rfl⟩ := ofPiece?_eq_name_iff.1 hpiece
    refine ⟨front.reverse, idle.reverse, ?_, ?_, hnotIdle, hnotUp⟩
    · intro piece hmem
      exact ofPiece?_eq_none_iff.1 (hidle piece (List.mem_reverse.1 hmem))
    · rw [← List.reverse_reverse rest, hrest]
      simp
  · rintro ⟨front, idle, hidle, rfl, hnotIdle, hnotUp⟩
    refine ⟨idle.reverse, name, front.reverse, by simp,
      ofPiece?_eq_name_iff.2 ⟨hnotIdle, hnotUp, rfl⟩, ?_⟩
    intro piece hmem
    exact ofPiece?_eq_none_iff.2 (hidle piece (List.mem_reverse.1 hmem))

/-- A piece that is no empty one in front of others makes the path relative. -/
theorem isAbsolute_eq_false {p : Path} {first : String} {rest : List String}
    (hpieces : p.pieces = first :: rest) (hfirst : first ≠ "") : p.isAbsolute = false := by
  rw [Bool.eq_false_iff, ne_eq, isAbsolute_iff, hpieces]
  rintro ⟨_, -, heq⟩
  exact hfirst (List.cons.inj heq).1

/-- The last component comes from behind the first piece, or it is the first one. -/
theorem getLast?_components {p : Path} {first : String} {rest : List String}
    (hpieces : p.pieces = first :: rest) :
    p.components.getLast? = (rest.filterMap (Component.ofPiece? false)).getLast?.or
      (if p.isAbsolute then some .root else Component.ofPiece? true first) := by
  rw [components, hpieces]
  dsimp only
  split
  · rw [List.getLast?_cons]
    cases (rest.filterMap (Component.ofPiece? false)).getLast? <;> rfl
  · rw [List.getLast?_append]
    cases Component.ofPiece? true first <;> rfl

/-- A path whose last component is a name ends in it. -/
theorem exists_endsIn {p : Path} {name : String}
    (h : p.components.getLast? = some (.name name)) : ∃ front, p.EndsIn front name := by
  have hslash : ∀ front idle, p.pieces = front ++ name :: idle → '/' ∉ name.toList :=
    fun _ _ heq => not_mem_of_mem_pieces (heq ▸ List.mem_append_right _ List.mem_cons_self)
  cases hpieces : p.pieces with
  | nil => exact absurd hpieces p.pieces_ne_nil
  | cons first rest =>
    rw [getLast?_components hpieces, Option.or_eq_some_iff] at h
    obtain hrest | ⟨hrest, hfirst⟩ := h
    · obtain ⟨front, idle, hidle, rfl, hnotIdle, hnotUp⟩ := getLast?_rest.1 hrest
      exact ⟨first :: front, ⟨hnotIdle, hnotUp, hslash (first :: front) idle hpieces⟩, idle,
        hidle, hpieces⟩
    · -- Only the first piece is left to be the name.
      have hname : Component.ofPiece? true first = some (.name name) := by
        split at hfirst
        · simp at hfirst
        · exact hfirst
      obtain ⟨hnotIdle, hnotUp, rfl⟩ := ofPiece?_eq_name_iff.1 hname
      refine ⟨[], ⟨hnotIdle, hnotUp, hslash [] rest hpieces⟩, rest, fun piece hmem => ?_, hpieces⟩
      rw [List.getLast?_eq_none_iff] at hrest
      exact ofPiece?_eq_none_iff.1 (List.filterMap_eq_nil_iff.1 hrest piece hmem)

theorem EndsIn.getLast?_components {p : Path} {front : List String} {name : String}
    (h : p.EndsIn front name) : p.components.getLast? = some (.name name) := by
  obtain ⟨hname, idle, hidle, heq⟩ := h
  cases front with
  | nil =>
    have hrest : idle.filterMap (Component.ofPiece? false) = [] :=
      List.filterMap_eq_nil_iff.2 fun piece hmem => ofPiece?_eq_none_iff.2 (hidle piece hmem)
    rw [Path.getLast?_components heq, hrest, isAbsolute_eq_false heq hname.ne_empty]
    exact ofPiece?_eq_name_iff.2 ⟨hname.notIdle, hname.notUp, rfl⟩
  | cons first front =>
    rw [List.cons_append] at heq
    rw [Path.getLast?_components heq,
      getLast?_rest.2 ⟨front, idle, hidle, rfl, hname.notIdle, hname.notUp⟩]
    rfl

/-- The name of a path is read off the pieces. -/
theorem fileName?_eq_some_iff {p : Path} {name : String} :
    p.fileName? = some name ↔ ∃ front, p.EndsIn front name := by
  have hlast : p.fileName? = some name ↔ p.components.getLast? = some (.name name) := by
    unfold fileName?
    split <;> simp_all
  rw [hlast]
  exact ⟨exists_endsIn, fun ⟨_, h⟩ => h.getLast?_components⟩

theorem EndsIn.fileName?_eq {p : Path} {front : List String} {name : String}
    (h : p.EndsIn front name) : p.fileName? = some name :=
  fileName?_eq_some_iff.2 ⟨front, h⟩

/-- The pieces of a path that is the point say nothing. -/
theorem allIdle_of_same {p : Path} (h : p.same ⟨"."⟩ = true) :
    AllIdle p.pieces ∧ p.isAbsolute = false := by
  have hcomponents : p.components = [.here] := by
    rw [same, beq_iff_eq] at h
    exact h.trans (by decide)
  rw [components] at hcomponents
  cases hpieces : p.pieces with
  | nil => exact absurd hpieces p.pieces_ne_nil
  | cons first rest =>
    simp only [hpieces] at hcomponents
    split at hcomponents
    · simp at hcomponents
    · next habsolute =>
      -- Only the first piece can be the point.
      have hrest : Component.here ∉ rest.filterMap (Component.ofPiece? false) := by
        rw [List.mem_filterMap]
        rintro ⟨piece, -, hpiece⟩
        unfold Component.ofPiece? at hpiece
        split at hpiece <;> simp at hpiece
      cases hfirst : Component.ofPiece? true first with
      | none =>
        rw [hfirst, Option.toList_none, List.nil_append] at hcomponents
        simp [hcomponents] at hrest
      | some component =>
        rw [hfirst, Option.toList_some, List.singleton_append, List.cons.injEq,
          List.filterMap_eq_nil_iff] at hcomponents
        obtain ⟨rfl, hnone⟩ := hcomponents
        refine ⟨List.forall_mem_cons.2 ⟨?_, fun piece hmem =>
          ofPiece?_eq_none_iff.1 (hnone piece hmem)⟩, Bool.eq_false_iff.2 habsolute⟩
        unfold Component.ofPiece? at hfirst
        split at hfirst <;> simp_all [isIdle]

/-- A path with a name at its end is not the point. -/
theorem EndsIn.not_same {p : Path} {front : List String} {name : String}
    (h : p.EndsIn front name) : p.same ⟨"."⟩ = false := by
  rw [Bool.eq_false_iff]
  intro hsame
  obtain ⟨hname, idle, -, hpieces⟩ := h
  have hidle := (allIdle_of_same hsame).1 name (by simp [hpieces])
  rw [hname.notIdle] at hidle
  exact Bool.noConfusion hidle

theorem empty_join {name : String} (h : '/' ∉ name.toList) :
    (⟨""⟩ : Path).join ⟨name⟩ = ⟨name⟩ := by
  rw [join, isAbsolute_name h, if_neg Bool.false_ne_true, if_pos (by rfl)]
  exact congrArg Path.mk String.empty_append

/-- Every name among the pieces is a component. -/
theorem name_mem_components {p : Path} {name : String} (hname : IsName name)
    (hmem : name ∈ p.pieces) : Component.name name ∈ p.components := by
  have hpiece : ∀ first, Component.ofPiece? first name = some (.name name) := fun first =>
    ofPiece?_eq_name_iff.2 ⟨hname.notIdle, hname.notUp, rfl⟩
  rw [components]
  cases hpieces : p.pieces with
  | nil => exact absurd hpieces p.pieces_ne_nil
  | cons first rest =>
    rw [hpieces, List.mem_cons] at hmem
    obtain rfl | hmem := hmem
    · simp [isAbsolute_eq_false hpieces hname.ne_empty, hpiece]
    · have hrest : Component.name name ∈ rest.filterMap (Component.ofPiece? false) :=
        List.mem_filterMap.2 ⟨name, hmem, hpiece false⟩
      dsimp only
      split
      · exact List.mem_cons_of_mem _ hrest
      · exact List.mem_append_right _ hrest

/-- A name alone. -/
theorem endsIn_name {name : String} (hname : IsName name) : (⟨name⟩ : Path).EndsIn [] name :=
  ⟨hname, [], by simp [AllIdle], pieces_name hname.noSlash⟩

/-- A name that is joined to a path is the name at its end. -/
theorem endsIn_join (p : Path) {name : String} (hname : IsName name) :
    ∃ front, (p.join ⟨name⟩).EndsIn front name := by
  cases hp : p.isEmpty with
  | true =>
    obtain rfl : p = ⟨""⟩ := congrArg Path.mk (String.isEmpty_iff.1 hp)
    rw [empty_join hname.noSlash]
    exact ⟨[], endsIn_name hname⟩
  | false =>
    obtain ⟨front, hjoin, -⟩ := pieces_join hp hname.noSlash
    exact ⟨front, hname, [], by simp [AllIdle], hjoin⟩

/-! ### The directory of a path -/

/-- The pieces are the same up to some at the end that say nothing. -/
def SameWay (ps qs : List String) : Prop :=
  ∃ base idle idle', AllIdle idle ∧ AllIdle idle' ∧ ps = base ++ idle ∧ qs = base ++ idle'

/-- An empty piece at the end says nothing. -/
theorem SameWay.of_empty {ps front : List String} (h : ps = front ∨ ps = front ++ [""]) :
    SameWay ps front := by
  obtain rfl | rfl := h
  · exact ⟨ps, [], [], by simp [AllIdle], by simp [AllIdle], by simp, by simp⟩
  · exact ⟨front, [""], [], by simp [AllIdle, isIdle], by simp [AllIdle], rfl, by simp⟩

theorem SameWay.symm {ps qs : List String} (h : SameWay ps qs) : SameWay qs ps := by
  obtain ⟨base, idle, idle', hidle, hidle', hps, hqs⟩ := h
  exact ⟨base, idle', idle, hidle', hidle, hqs, hps⟩

theorem SameWay.mem {ps qs : List String} (h : SameWay ps qs) {piece : String}
    (hpiece : isIdle piece = false) (hmem : piece ∈ ps) : piece ∈ qs := by
  obtain ⟨base, idle, idle', hidle, -, rfl, rfl⟩ := h
  rw [List.mem_append] at hmem ⊢
  refine hmem.imp_right fun hmem => absurd (hidle _ hmem) ?_
  rw [hpiece]
  exact Bool.false_ne_true

theorem dropIdle_append {idle rest : List String} {piece : String} (hidle : AllIdle idle)
    (hpiece : isIdle piece = false) : dropIdle (idle ++ piece :: rest) = piece :: rest := by
  induction idle with
  | nil =>
    cases rest with
    | nil => rfl
    | cons next rest => simp [dropIdle, hpiece]
  | cons first idle ih =>
    have htail : ∃ next more, idle ++ piece :: rest = next :: more := by cases idle <;> simp
    obtain ⟨next, more, hnext⟩ := htail
    rw [AllIdle, List.forall_mem_cons] at hidle
    rw [List.cons_append, hnext, dropIdle, if_pos hidle.1, ← hnext, ih hidle.2]
    simp

theorem dropIdle_eq {reversed : List String} (hne : reversed ≠ []) :
    ∃ idle, AllIdle idle ∧ reversed = idle ++ dropIdle reversed ∧ dropIdle reversed ≠ [] := by
  induction reversed with
  | nil => exact absurd rfl hne
  | cons piece rest ih =>
    cases rest with
    | nil => exact ⟨[], by simp [AllIdle], by simp [dropIdle], by simp [dropIdle]⟩
    | cons next rest =>
      by_cases hpiece : isIdle piece = true
      · obtain ⟨idle, hidle, heq, hdrop⟩ := ih (by simp)
        have hstep : dropIdle (piece :: next :: rest) = dropIdle (next :: rest) := by
          rw [dropIdle, if_pos hpiece]
          simp
        refine ⟨piece :: idle, List.forall_mem_cons.2 ⟨hpiece, hidle⟩, ?_, hstep ▸ hdrop⟩
        rw [hstep, List.cons_append, ← heq]
      · refine ⟨[], by simp [AllIdle], ?_, ?_⟩ <;> simp [dropIdle, hpiece]

/-- The path of pieces that stand in front of others. -/
theorem ofPieces_front {p : Path} {base rest : List String} (hbase : base ≠ []) (hrest : rest ≠ [])
    (hpieces : p.pieces = base ++ rest) :
    (ofPieces base.reverse p.isAbsolute).isEmpty = false ∧
      (ofPieces base.reverse p.isAbsolute).isAbsolute = p.isAbsolute ∧
      ∃ idle, AllIdle idle ∧ (ofPieces base.reverse p.isAbsolute).pieces = base ++ idle := by
  by_cases hroot : base = [""]
  · subst hroot
    have habsolute : p.isAbsolute = true := isAbsolute_iff.2 ⟨rest, hrest, hpieces⟩
    rw [habsolute]
    exact ⟨rfl, rfl, [""], by simp [AllIdle, isIdle], rfl⟩
  · have hpath : ofPieces base.reverse p.isAbsolute = ⟨String.intercalate "/" base⟩ := by
      unfold ofPieces
      split
      · next heq => exact absurd (List.reverse_eq_iff.1 heq) hroot
      · rw [List.reverse_reverse]
    have hbasePieces : (⟨String.intercalate "/" base⟩ : Path).pieces = base :=
      pieces_intercalate hbase fun piece hmem =>
        not_mem_of_mem_pieces (hpieces ▸ List.mem_append_left _ hmem)
    rw [hpath, hbasePieces]
    refine ⟨?_, ?_, [], by simp [AllIdle], by simp⟩
    · rw [Bool.eq_false_iff, ne_eq, isEmpty_iff_pieces, hbasePieces]
      exact hroot
    · -- Both paths have the same first piece, and pieces behind it.
      rw [Bool.eq_iff_iff, isAbsolute_iff, isAbsolute_iff, hbasePieces, hpieces]
      cases base with
      | nil => exact absurd rfl hbase
      | cons first base =>
        simp only [List.cons_append, List.cons.injEq]
        constructor
        · rintro ⟨_, -, rfl, -⟩
          exact ⟨base ++ rest, by simp [hrest], rfl, rfl⟩
        · rintro ⟨_, -, rfl, -⟩
          exact ⟨base, fun h => hroot (by rw [h]), rfl, rfl⟩

/-- The directory of a path that ends in a name is made of the pieces in front of the name. -/
theorem EndsIn.parent?_eq {p : Path} {front : List String} {name : String}
    (h : p.EndsIn front name) : p.parent? = if front = [] then some ⟨""⟩ else
      some (ofPieces (dropIdle front.reverse) p.isAbsolute) := by
  have hlast := h.fileName?_eq
  obtain ⟨hname, idle, hidle, hpieces⟩ := h
  have hdrop : dropIdle p.pieces.reverse = name :: front.reverse := by
    rw [hpieces, List.reverse_append, List.reverse_cons, List.append_assoc]
    exact dropIdle_append (fun piece hmem => hidle piece (List.mem_reverse.1 hmem)) hname.notIdle
  unfold parent?
  split
  · next hcomponents => simp [fileName?, hcomponents] at hlast
  · next hcomponents => simp [fileName?, hcomponents] at hlast
  · rw [hdrop]
    cases hcases : front.reverse with
    | nil => exact (if_pos (List.reverse_eq_nil_iff.1 hcases)).symm
    | cons next rest =>
      have hfront : front ≠ [] := List.reverse_ne_nil_iff.1 (hcases ▸ List.cons_ne_nil _ _)
      exact (if_neg hfront).symm

/-- Paths that differ in the name at the end have the same directory. -/
theorem parent?_congr {p q : Path} {front : List String} {name name' : String}
    (hp : p.pieces = front ++ [name]) (hq : q.pieces = front ++ [name']) (hname : IsName name)
    (hname' : IsName name') : p.parent? = q.parent? := by
  have hends : p.EndsIn front name := ⟨hname, [], by simp [AllIdle], hp⟩
  have hends' : q.EndsIn front name' := ⟨hname', [], by simp [AllIdle], hq⟩
  rw [hends.parent?_eq, hends'.parent?_eq]
  cases front with
  | nil => rfl
  | cons first front =>
    -- The first piece tells whether a path is absolute, and it is no name.
    have habsolute : p.isAbsolute = q.isAbsolute := by
      rw [Bool.eq_iff_iff, isAbsolute_iff, isAbsolute_iff, hp, hq]
      simp
    rw [habsolute]

/-- The directory of a path that ends in a name: nothing is written in front, or the pieces in front
are those of the directory. -/
theorem EndsIn.parent?_cases {p : Path} {front : List String} {name : String}
    (h : p.EndsIn front name) :
    (front = [] ∧ p.parent? = some ⟨""⟩) ∨
      ∃ above, p.parent? = some above ∧ above.isEmpty = false ∧
        above.isAbsolute = p.isAbsolute ∧ SameWay front above.pieces := by
  have hparent := h.parent?_eq
  obtain ⟨hname, idle, hidle, hpieces⟩ := h
  obtain rfl | hfront := eq_or_ne front []
  · exact .inl ⟨rfl, hparent⟩
  · right
    rw [if_neg hfront] at hparent
    have hreversed := List.reverse_ne_nil_iff.2 hfront
    -- The directory is written up to the last of its pieces that is not idle.
    obtain ⟨idle', hidle', hreverse, hbase⟩ := dropIdle_eq hreversed
    generalize hfrontBase : (dropIdle front.reverse).reverse = base
    rw [List.reverse_eq_iff] at hfrontBase
    rw [hfrontBase] at hreverse hbase
    have heq : front = base ++ idle'.reverse := by
      rw [← List.reverse_reverse front, hreverse]
      simp
    obtain ⟨hempty, habsolute, idle'', hidle'', habove⟩ :=
      ofPieces_front (by simpa using hbase) (by simp)
        (show p.pieces = base ++ (idle'.reverse ++ name :: idle) by
          rw [hpieces, heq, List.append_assoc])
    refine ⟨_, ?_, hempty, habsolute, base, idle'.reverse, idle'', ?_, hidle'', heq, habove⟩
    · rw [hparent, hfrontBase]
    · exact fun piece hmem => hidle' piece (List.mem_reverse.1 hmem)

end GridStyle.Path
