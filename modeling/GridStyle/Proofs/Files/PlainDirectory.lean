import GridStyle.Proofs.Files.SecondSearch
import Mathlib.Data.String.Basic

/-!
# Where the Path of a Directory Leads

A search looks the pieces of a directory up one after the other, each behind what it has found so
far. That leads where a walk along the path leads (`Glob.exists_follow`), under a path that is not
longer, so the disk takes it, too. The exception is a path that starts with points and then an empty
piece (`Path.hidesStart`): the search is at the working directory then, which it does not write in
front of a name, and an empty path leads nowhere (`Glob.follow_hidden`).
-/

namespace GridStyle

open GridStyle.Path

/-! ### Texts and components of joined paths -/

namespace Text

/-- The parts that a text is cut into make up the text. -/
theorem intercalate_cutAt (c : Char) (cs : List Char) :
    List.intercalate [c] (cutAt (· == c) cs) = cs := by
  induction cs with
  | nil => rfl
  | cons first cs ih =>
    obtain ⟨part, parts, hcut⟩ := List.exists_cons_of_ne_nil (cutAt_ne_nil (· == c) cs)
    rw [hcut] at ih
    rw [cutAt, hcut]
    by_cases hfirst : first = c
    · rw [if_pos (by simpa using hfirst), List.intercalate_cons_cons, ih, hfirst]
      rfl
    · rw [if_neg (by simpa using hfirst)]
      cases parts with
      | nil =>
        rw [List.intercalate_singleton] at ih
        rw [List.intercalate_singleton, ih]
      | cons next parts =>
        rw [List.intercalate_cons_cons] at ih
        rw [List.intercalate_cons_cons, List.cons_append, List.cons_append, ih]

end Text

namespace Path

theorem intercalate_pieces (p : Path) : String.intercalate "/" p.pieces = p.text := by
  have hparts : p.pieces.map String.toList = Text.cutAt (· == '/') p.text.toList := by
    rw [pieces, List.map_map]
    exact (List.map_congr_left fun part _ => String.toList_ofList).trans (List.map_id _)
  apply String.toList_injective
  rw [String.toList_intercalate, hparts]
  exact Text.intercalate_cutAt '/' p.text.toList

theorem components_eq {p : Path} {first : String} {rest : List String}
    (hpieces : p.pieces = first :: rest) :
    p.components = (if p.isAbsolute then [.root] else (Component.ofPiece? true first).toList) ++
      rest.filterMap (Component.ofPiece? false) := by
  rw [components, hpieces]
  dsimp only
  split <;> rfl

/-- Only the empty path has no components. -/
theorem components_ne_nil {p : Path} (hp : p.isEmpty = false) : p.components ≠ [] := by
  obtain ⟨first, rest, hpieces⟩ := List.exists_cons_of_ne_nil p.pieces_ne_nil
  rw [components_eq hpieces]
  intro hnil
  rw [List.append_eq_nil_iff] at hnil
  split at hnil
  · exact absurd hnil.1 (List.cons_ne_nil _ _)
  · next habsolute =>
    -- Of a relative path only the empty piece is no component in front.
    have hfirst : first = "" := by
      have hnone := Option.toList_eq_nil_iff.1 hnil.1
      unfold Component.ofPiece? at hnone
      split at hnone <;> simp_all
    subst hfirst
    rw [isAbsolute_iff, hpieces] at habsolute
    have hrest : rest = [] := Classical.byContradiction fun hne => habsolute ⟨rest, hne, rfl⟩
    rw [Bool.eq_false_iff, ne_eq, isEmpty_iff_pieces, hpieces, hrest] at hp
    exact hp rfl

/-- A piece that is joined adds the component that it stands for. -/
theorem components_join {p : Path} (hp : p.isEmpty = false) {piece : String}
    (hpiece : '/' ∉ piece.toList) :
    (p.join ⟨piece⟩).components = p.components ++ (Component.ofPiece? false piece).toList := by
  obtain ⟨front, hjoin, hpieces⟩ := pieces_join hp hpiece
  cases front with
  | nil =>
    rw [Bool.eq_false_iff, ne_eq, isEmpty_iff_pieces] at hp
    exact (hpieces.elim p.pieces_ne_nil hp).elim
  | cons first rest =>
    have hrest : p.components =
        (if p.isAbsolute then [.root] else (Component.ofPiece? true first).toList) ++
          rest.filterMap (Component.ofPiece? false) := by
      rcases hpieces with hpieces | hpieces
      · exact components_eq hpieces
      · rw [List.cons_append] at hpieces
        rw [components_eq hpieces, List.filterMap_append]
        exact congrArg _ (List.append_nil _)
    rw [List.cons_append] at hjoin
    rw [components_eq hjoin, isAbsolute_join hp hpiece, List.filterMap_append, hrest,
      ← List.append_assoc]
    cases hcomponent : Component.ofPiece? false piece <;> simp [hcomponent]

/-- Joining does not lead back to the point. -/
theorem not_same_join {p : Path} (hp : p.isEmpty = false) (hsame : p.same ⟨"."⟩ = false)
    {piece : String} (hpiece : '/' ∉ piece.toList) : (p.join ⟨piece⟩).same ⟨"."⟩ = false := by
  have hpoint : (⟨"."⟩ : Path).components = [.here] := by decide
  rw [same, hpoint, beq_eq_false_iff_ne] at hsame ⊢
  rw [components_join hp hpiece]
  intro heq
  rw [List.append_eq_singleton_iff] at heq
  rcases heq with ⟨hnil, -⟩ | ⟨hhere, -⟩
  · exact components_ne_nil hp hnil
  · exact hsame hhere

end Path

/-! ### Looking a directory up -/

namespace Path

/-- Points stand in front and then an empty piece, as in `.//a`. -/
def hidesStart (p : Path) : Bool :=
  p.pieces.head? == some "." && (p.pieces.dropWhile (· == ".")).head? == some ""

/-- A path is usable if its text is part of one that is. -/
theorem isUsable_of_sublist {p q : Path} (h : q.text.toList.Sublist p.text.toList)
    (hp : p.isUsable = true) : q.isUsable = true := by
  have hbytes : q.text.utf8ByteSize ≤ p.text.utf8ByteSize := by
    have hlen := String.utf8Len_le_of_sublist h
    rwa [String.utf8Len_toList, String.utf8Len_toList] at hlen
  simp only [isUsable, Bool.and_eq_true, Bool.not_eq_true', decide_eq_true_eq] at hp ⊢
  refine ⟨?_, by omega⟩
  rw [Bool.eq_false_iff, ne_eq, List.contains_iff_mem]
  intro hmem
  have hnul := hp.1
  rw [Bool.eq_false_iff, ne_eq, List.contains_iff_mem] at hnul
  exact hnul (h.subset hmem)

end Path

namespace Glob

/-- What is written in front of a name that is looked up below a path. -/
def lead (path : Path) : List Char :=
  if path = ⟨"."⟩ then []
  else if path.endsWithSlash then path.text.toList else path.text.toList ++ ['/']

/-- The text of a path with pieces behind it. -/
def spelled (path : Path) (names : List String) : List Char :=
  lead path ++ (String.intercalate "/" names).toList

theorem lead_sublist (path : Path) : (lead path).Sublist (path.text.toList ++ ['/']) := by
  rw [lead]
  split
  · exact List.nil_sublist _
  · split
    · exact List.sublist_append_left _ _
    · exact List.Sublist.refl _

/-- How a name below a path is written, if no other path than the point is the working directory. -/
theorem toList_below {path : Path} (hempty : path.isEmpty = false)
    (hpoint : path.same ⟨"."⟩ = true → path = ⟨"."⟩) {name : String} (hname : '/' ∉ name.toList) :
    (below path name).text.toList = lead path ++ name.toList := by
  rw [below, lead]
  split
  · next hsame => rw [if_pos (hpoint hsame)]; rfl
  · next hsame =>
    have hne : path ≠ ⟨"."⟩ := by
      rintro rfl
      exact hsame (by decide)
    rw [if_neg hne, join, isAbsolute_name hname, if_neg Bool.false_ne_true, hempty, Bool.false_or]
    split
    · exact String.toList_append
    · rw [String.toList_append, String.toList_append]
      rfl

/-- The text does not grow when the first piece is looked up. -/
theorem spelled_below {path : Path} (hempty : path.isEmpty = false)
    (hpoint : path.same ⟨"."⟩ = true → path = ⟨"."⟩) {name : String} (hname : '/' ∉ name.toList)
    (rest : List String) :
    (below path name).text.toList.Sublist (spelled path (name :: rest)) ∧
      (rest ≠ [] → (spelled (below path name) rest).Sublist (spelled path (name :: rest))) := by
  have htext := toList_below hempty hpoint hname
  cases rest with
  | nil =>
    rw [htext, spelled, String.intercalate_singleton]
    exact ⟨List.Sublist.refl _, fun h => absurd rfl h⟩
  | cons next rest =>
    have hspelled : spelled path (name :: next :: rest) =
        (below path name).text.toList ++ ['/'] ++
          (String.intercalate "/" (next :: rest)).toList := by
      rw [htext, spelled, String.intercalate_cons_cons, String.toList_append,
        String.toList_append, List.append_assoc, List.append_assoc, List.append_assoc]
      rfl
    rw [hspelled, spelled]
    exact ⟨(List.sublist_append_left _ _).trans (List.sublist_append_left _ _),
      fun _ => (lead_sublist _).append (List.Sublist.refl _)⟩

/-- From the working directory nothing is found behind an empty piece. -/
theorem follow_hidden (d : Disk) {names : List String}
    (h : (names.dropWhile (· == ".")).head? = some "") : follow d names ⟨"."⟩ = none := by
  induction names with
  | nil => exact absurd h nofun
  | cons name names ih =>
    by_cases hname : name = "."
    · subst hname
      rw [List.dropWhile_cons_of_pos (by decide)] at h
      rw [follow, show below ⟨"."⟩ "." = ⟨"."⟩ by decide, ih h, ite_self]
    · rw [List.dropWhile_cons_of_neg (by simpa using hname), List.head?_cons,
        Option.some.injEq] at h
      subst h
      have habsent : isPresent d ⟨"."⟩ "" = false := rfl
      rw [follow, habsent, if_neg Bool.false_ne_true]

/-- The working directory is left with the first piece that is not a point. -/
theorem same_of_same_below {path : Path} (hempty : path.isEmpty = false) {name : String}
    (hname : '/' ∉ name.toList) (hne : path.same ⟨"."⟩ = true → name ≠ "")
    (h : (below path name).same ⟨"."⟩ = true) : path.same ⟨"."⟩ = true ∧ name = "." := by
  by_cases hpath : path.same ⟨"."⟩ = true
  · rw [below, if_pos hpath] at h
    have hidle := (allIdle_of_same h).1 name (by rw [pieces_name hname]; simp)
    rw [isIdle, Bool.or_eq_true, beq_iff_eq, beq_iff_eq] at hidle
    exact ⟨hpath, hidle.resolve_left (hne hpath)⟩
  · rw [below, if_neg hpath, not_same_join hempty (Bool.eq_false_iff.2 hpath) hname] at h
    exact absurd h Bool.false_ne_true

/-- A piece is looked up below a path where a walk makes its step. -/
theorem isPresent_of_walk {d : Disk} {path : Path} {m₀ m : List String}
    (hpath : d.locate? path = some m₀) {name : String} (hname : '/' ∉ name.toList)
    (hne : path.same ⟨"."⟩ = true → name ≠ "") (husable : (below path name).isUsable = true)
    (hwalk : d.walk m₀ [name] = some m) :
    isPresent d path name = true ∧ d.locate? (below path name) = some m := by
  have hm₀ := Disk.directory_of_walk_cons hwalk
  have hbelow : d.locate? (below path name) = some m := by
    by_cases hempty : name = ""
    · have hsame : ¬ path.same ⟨"."⟩ = true := fun hsame => hne hsame hempty
      rw [below, if_neg hsame] at husable ⊢
      rw [Disk.locate?_join hpath hm₀ hname husable, hwalk]
    · rw [Disk.locate?_below hpath hm₀ hname hempty husable, hwalk]
  refine ⟨?_, hbelow⟩
  rw [isPresent]
  split
  · exact Disk.isDirectory_iff.2 ⟨m₀, hpath, hm₀⟩
  · exact Disk.pathExists_iff.2 ⟨m, hbelow⟩

/-- Looking pieces up leads where a walk along them leads. -/
theorem exists_follow_walk {d : Disk} {source : Path} (husable : source.isUsable = true)
    {names : List String} {path : Path} {m₀ m : List String} (hpath : d.locate? path = some m₀)
    (hpoint : path.same ⟨"."⟩ = true → path = ⟨"."⟩)
    (hstart : path.same ⟨"."⟩ = true → (names.dropWhile (· == ".")).head? ≠ some "")
    (htext : names ≠ [] → (spelled path names).Sublist source.text.toList)
    (hnames : ∀ name ∈ names, '/' ∉ name.toList) (hwalk : d.walk m₀ names = some m) :
    ∃ base, follow d names path = some base ∧ d.locate? base = some m := by
  induction names generalizing path m₀ with
  | nil =>
    obtain ⟨rfl, -⟩ := Disk.walk_eq_some hwalk
    exact ⟨path, rfl, hpath⟩
  | cons name names ih =>
    rw [List.forall_mem_cons] at hnames
    have hempty := (Disk.locate?_eq_some_iff.1 hpath).1
    have hne : path.same ⟨"."⟩ = true → name ≠ "" := by
      rintro hsame rfl
      exact hstart hsame rfl
    -- The path with the name is no longer than the text that is being looked up.
    obtain ⟨hnext, hrest⟩ := spelled_below hempty hpoint hnames.1 names
    have hspelled := htext (List.cons_ne_nil _ _)
    have husable' := isUsable_of_sublist (hnext.trans hspelled) husable
    rw [← List.singleton_append, Disk.walk_append, Option.bind_eq_some_iff] at hwalk
    obtain ⟨m₁, hstep, hwalk⟩ := hwalk
    obtain ⟨hpresent, hbelow⟩ := isPresent_of_walk hpath hnames.1 hne husable' hstep
    have hagain := same_of_same_below hempty hnames.1 hne
    rw [follow, if_pos hpresent]
    refine ih hbelow (fun hsame => ?_) (fun hsame => ?_) (fun hne => (hrest hne).trans hspelled)
      hnames.2 hwalk
    · obtain ⟨hpath', rfl⟩ := hagain hsame
      rw [hpoint hpath']
      decide
    · obtain ⟨hpath', rfl⟩ := hagain hsame
      have hhead := hstart hpath'
      rwa [List.dropWhile_cons_of_pos (by decide)] at hhead

/-- The root and the working directory are found where a path starts. -/
theorem locate?_base {d : Disk} (htree : d.IsFileTree) {source base : Path}
    (hbase : base ∈ [(⟨"/"⟩ : Path), ⟨"."⟩]) (habsolute : base.isAbsolute = source.isAbsolute) :
    d.locate? base = some (d.start source) := by
  have hidle : ∀ p ∈ [(⟨"/"⟩ : Path), ⟨"."⟩],
      p.isEmpty = false ∧ p.isUsable = true ∧ AllIdle p.pieces := by decide
  obtain ⟨hempty, husable, hpieces⟩ := hidle base hbase
  refine Disk.locate?_eq_some_iff.2 ⟨hempty, husable, ?_⟩
  rw [Disk.start_eq habsolute]
  exact Disk.walk_idle (htree.start source) hpieces

/-- The pieces of a directory lead to it, unless they hide where they start. -/
theorem exists_follow {d : Disk} (htree : d.IsFileTree) {source : Path} {m : List String}
    (hlocate : d.locate? source = some m) (hstart : source.hidesStart = false) :
    ∃ base, follow d (namesOf source) (baseOf source) = some base ∧ d.locate? base = some m := by
  obtain ⟨hempty, husable, hwalk⟩ := Disk.locate?_eq_some_iff.1 hlocate
  have hslash : ∀ name ∈ source.pieces, '/' ∉ name.toList := fun _ => not_mem_of_mem_pieces
  have htext := congrArg String.toList source.intercalate_pieces
  obtain ⟨first, rest, hpieces⟩ := List.exists_cons_of_ne_nil source.pieces_ne_nil
  rw [hpieces] at hwalk hslash htext
  rw [namesOf, baseOf, hpieces, List.head?_cons]
  by_cases hfirst : first = ""
  · -- From the root, the piece in front of the first slash is left out.
    subst hfirst
    have hrest : rest ≠ [] := by
      rintro rfl
      rw [Bool.eq_false_iff, ne_eq, isEmpty_iff_pieces] at hempty
      exact hempty hpieces
    have habsolute : source.isAbsolute = true := isAbsolute_iff.2 ⟨rest, hrest, hpieces⟩
    rw [if_pos rfl, if_pos rfl]
    rw [Disk.walk_cons (htree.start source), resolve, if_pos (show isIdle "" = true from rfl),
      resolve] at hwalk
    refine exists_follow_walk husable (locate?_base htree (by decide) (by rw [habsolute]; rfl))
      (fun hsame => absurd hsame (by decide)) (fun hsame => absurd hsame (by decide)) (fun _ => ?_)
      (List.forall_mem_cons.1 hslash).2 hwalk
    obtain ⟨next, rest, rfl⟩ := List.exists_cons_of_ne_nil hrest
    rw [String.intercalate_cons_cons] at htext
    rw [← htext, List.drop_one, List.tail_cons, String.empty_append, String.toList_append]
    exact List.Sublist.refl _
  · have habsolute := isAbsolute_eq_false hpieces hfirst
    have hhead : ¬ some first = some "" := fun heq => hfirst (Option.some.inj heq)
    rw [if_neg hhead, if_neg hhead]
    refine exists_follow_walk husable (locate?_base htree (by decide) (by rw [habsolute]; rfl))
      (fun _ => rfl) (fun _ hdrop => ?_) (fun _ => ?_) hslash hwalk
    · have hpoint : first = "." := by
        by_contra hne
        rw [List.dropWhile_cons_of_neg (by simpa using hne), List.head?_cons,
          Option.some.injEq] at hdrop
        exact hfirst hdrop
      rw [hidesStart, hpieces, hdrop, hpoint] at hstart
      simp at hstart
    · rw [← htext]
      exact List.Sublist.refl _

end Glob

end GridStyle
