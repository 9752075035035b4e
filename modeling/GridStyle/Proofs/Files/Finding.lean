import GridStyle.Compile
import GridStyle.Proofs.Files.Saving

/-!
# What Patterns Find

On a file tree (`Disk.IsFileTree`) every path that is found exists, if the disk takes the path at
all (`Glob.pathExists_of_mem_expand`).
-/

namespace GridStyle

open GridStyle.Path

/-! ### File trees -/

namespace Entry

mutual

/-- Every directory of the tree holds different names that entries can have. -/
def isTree : Entry → Bool
  | .file _ => true
  | .directory entries => decide (entries.map Prod.fst).Nodup && areTrees entries

/-- Named entries are trees, under names that entries can have. -/
def areTrees : List (String × Entry) → Bool
  | [] => true
  | (name, e) :: rest => decide (IsName name) && e.isTree && areTrees rest

end

theorem of_areTrees {entries : List (String × Entry)} (h : areTrees entries = true) {name : String}
    {e : Entry} (he : (name, e) ∈ entries) : IsName name ∧ e.isTree = true := by
  induction entries with
  | nil => simp at he
  | cons entry entries ih =>
    obtain ⟨first, e'⟩ := entry
    rw [areTrees, Bool.and_eq_true, Bool.and_eq_true, decide_eq_true_eq] at h
    rw [List.mem_cons] at he
    obtain heq | he := he
    · obtain ⟨rfl, rfl⟩ := Prod.mk.inj heq
      exact h.1
    · exact ih h.2 he

/-- What is at a location of a tree is a tree. -/
theorem isTree_of_at? {e found : Entry} {m : List String} (he : e.isTree = true)
    (h : e.at? m = some found) : found.isTree = true := by
  induction m generalizing e with
  | nil =>
    rw [at?, Option.some.injEq] at h
    exact h ▸ he
  | cons name rest ih =>
    obtain ⟨entries, child, rfl, hchild, hrest⟩ := exists_child_of_at? h
    rw [isTree, Bool.and_eq_true] at he
    obtain ⟨front, back, heq, -⟩ := List.lookup_eq_some_iff.1 hchild
    have hmem : (name, child) ∈ front ++ (name, child) :: back := by simp
    rw [← heq] at hmem
    exact ih (of_areTrees he.2 hmem).2 hrest

end Entry

/-- A tree of files, in which the working directory is. -/
structure Disk.IsFileTree (d : Disk) : Prop where
  working : d.isDirectoryAt d.working = true
  isTree : d.root.isTree = true

instance (d : Disk) : Decidable d.IsFileTree :=
  decidable_of_iff (d.isDirectoryAt d.working = true ∧ d.root.isTree = true)
    ⟨fun h => ⟨h.1, h.2⟩, fun h => ⟨h.working, h.isTree⟩⟩

namespace Disk

theorem node?_eq_directory_iff {d : Disk} {m : List String} :
    d.node? m = some .directory ↔ ∃ entries, d.root.at? m = some (.directory entries) := by
  rw [node?, Entry.node?, Option.map_eq_some_iff]
  constructor
  · rintro ⟨e, hat, hnode⟩
    obtain ⟨entries, rfl⟩ := Entry.isDirectory_iff.1 (Entry.node_eq_directory_iff.1 hnode)
    exact ⟨entries, hat⟩
  · rintro ⟨entries, hat⟩
    exact ⟨_, hat, rfl⟩

/-- Every directory is below one. -/
theorem node?_root {d : Disk} {m : List String} (h : d.node? m = some .directory) :
    d.node? [] = some .directory := by
  induction m using List.reverseRecOn with
  | nil => exact h
  | append_singleton m name ih => exact ih (Entry.node?_dropLast (h ▸ Option.some_ne_none _))

namespace IsFileTree

variable {d : Disk} {m : List String} {entries : List (String × Entry)} {name : String} {e : Entry}

theorem start (h : d.IsFileTree) (p : Path) : d.node? (d.start p) = some .directory := by
  have hworking := isDirectoryAt_iff.1 h.working
  rw [Disk.start]
  split
  · exact node?_root hworking
  · exact hworking

/-- Entries have names. -/
theorem isName (h : d.IsFileTree) (hm : d.root.at? m = some (.directory entries))
    (he : (name, e) ∈ entries) : IsName name := by
  have htree := Entry.isTree_of_at? h.isTree hm
  rw [Entry.isTree, Bool.and_eq_true] at htree
  exact (Entry.of_areTrees htree.2 he).1

/-- What a directory holds is found at its name. -/
theorem at?_child (h : d.IsFileTree) (hm : d.root.at? m = some (.directory entries))
    (he : (name, e) ∈ entries) : d.root.at? (m ++ [name]) = some e := by
  have htree := Entry.isTree_of_at? h.isTree hm
  rw [Entry.isTree, Bool.and_eq_true, decide_eq_true_eq] at htree
  rw [Entry.at?_append, hm, Option.bind_some, Entry.at?_cons, Entry.lookup_of_mem htree.1 he]
  rfl

end IsFileTree

end Disk

/-! ### Names in directories -/

namespace Disk

/-- A name joined to the path of a directory is looked up there. -/
theorem locate?_join {d : Disk} {dir : Path} {m : List String} (hdir : d.locate? dir = some m)
    (hm : d.node? m = some .directory) {name : String} (hname : '/' ∉ name.toList)
    (husable : (dir.join ⟨name⟩).isUsable = true) :
    d.locate? (dir.join ⟨name⟩) = d.walk m [name] := by
  obtain ⟨hempty, -, hwalk⟩ := locate?_eq_some_iff.1 hdir
  obtain ⟨front, hjoin, hpieces⟩ := pieces_join hempty hname
  have hfront := walk_sameWay (.of_empty hpieces) hwalk hm
  rw [locate?_eq_walk (isEmpty_join hempty hname) husable,
    start_eq (isAbsolute_join hempty hname), hjoin, walk_append, hfront]
  rfl

/-- A name in a directory is looked up there. -/
theorem locate?_below {d : Disk} {dir : Path} {m : List String} (hdir : d.locate? dir = some m)
    (hm : d.node? m = some .directory) {name : String} (hname : '/' ∉ name.toList)
    (hne : name ≠ "") (husable : (Glob.below dir name).isUsable = true) :
    d.locate? (Glob.below dir name) = d.walk m [name] := by
  rw [Glob.below] at husable ⊢
  split at husable
  · next hsame =>
    obtain ⟨hidle, hrelative⟩ := allIdle_of_same hsame
    obtain ⟨rfl, -⟩ := walk_eq_some (locate?_eq_some_iff.1 hdir).2.2
    have hempty : (⟨name⟩ : Path).isEmpty = false := by simpa [isEmpty] using hne
    rw [if_pos hsame, locate?_eq_walk hempty husable, resolve_idle hidle,
      start_eq ((isAbsolute_name hname).trans hrelative.symm), pieces_name hname]
  · next hsame => rw [if_neg hsame, locate?_join hdir hm hname husable]

end Disk

namespace Glob

theorem endsIn_below (dir : Path) {name : String} (hname : IsName name) :
    ∃ front, (below dir name).EndsIn front name := by
  rw [below]
  split
  · exact ⟨[], endsIn_name hname⟩
  · exact endsIn_join dir hname

/-- Below a directory whose path ends in a name, names are joined, so a path that is taken there has
a directory that is. -/
theorem isUsable_of_below {dir : Path} {front : List String} {last name : String}
    (hdir : dir.EndsIn front last) (hname : '/' ∉ name.toList)
    (husable : (below dir name).isUsable = true) : dir.isUsable = true := by
  rw [below, if_neg (by simp [hdir.not_same]), join, isAbsolute_name hname,
    if_neg Bool.false_ne_true] at husable
  have hfront : ∀ back : String, (⟨dir.text ++ back⟩ : Path).isUsable = true →
      dir.isUsable = true := by
    intro back h
    simp only [isUsable, String.toList_append, String.utf8ByteSize_append, Bool.and_eq_true,
      Bool.not_eq_true', List.contains_append, Bool.or_eq_false_iff, decide_eq_true_eq] at h ⊢
    exact ⟨h.1.1, by omega⟩
  split at husable
  · exact hfront _ husable
  · exact hfront _ (String.append_assoc ▸ husable)

/-- Names below a path are looked up at a location. -/
structure Stands (d : Disk) (dir : Path) (m : List String) : Prop where
  locate?_below : ∀ name, '/' ∉ name.toList → name ≠ "" → (below dir name).isUsable = true →
    d.locate? (below dir name) = d.walk m [name]

theorem stands_of_locate? {d : Disk} {dir : Path} {m : List String}
    (hdir : d.locate? dir = some m) (hm : d.node? m = some .directory) : Stands d dir m :=
  ⟨fun _ hname hne husable => Disk.locate?_below hdir hm hname hne husable⟩

/-- The location of a path that was found below a directory, if the disk takes the path. -/
structure FoundAt (d : Disk) (q : Path) (e : Entry) (m : List String) : Prop where
  endsIn : ∃ front name, q.EndsIn front name
  at?_eq : d.root.at? m = some e
  locate?_eq : q.isUsable = true → d.locate? q = some m

theorem FoundAt.stands {d : Disk} {q : Path} {e : Entry} {m : List String} (h : FoundAt d q e m)
    (he : e.isDirectory = true) : Stands d q m := by
  obtain ⟨front, name, hends⟩ := h.endsIn
  obtain ⟨entries, rfl⟩ := Entry.isDirectory_iff.1 he
  refine ⟨fun name' hname hne husable => ?_⟩
  have hlocate := h.locate?_eq (isUsable_of_below hends hname husable)
  exact Disk.locate?_below hlocate (Disk.node?_eq_directory_iff.2 ⟨_, h.at?_eq⟩) hname hne husable

/-- What a directory holds is found under its name. -/
theorem foundAt_below {d : Disk} {dir : Path} {m : List String} {name : String} {e : Entry}
    (hdir : Stands d dir m) (hm : d.node? m = some .directory) (hname : IsName name)
    (he : d.root.at? (m ++ [name]) = some e) : FoundAt d (below dir name) e (m ++ [name]) := by
  obtain ⟨front, hends⟩ := endsIn_below dir hname
  refine ⟨⟨front, name, hends⟩, he, fun husable => ?_⟩
  have hexists : d.node? (m ++ [name]) ≠ none := by
    rw [Disk.node?, Entry.node?, he]
    exact Option.some_ne_none _
  rw [hdir.locate?_below name hname.noSlash hname.ne_empty husable, Disk.walk_cons hm,
    resolve_name hname.notIdle hname.notUp, resolve, Disk.walk_nil hexists]

/-- The entries of a directory are found if the disk takes its path. -/
@[simp] theorem mem_allBelow_directory {dir : Path} {entries : List (String × Entry)}
    {x : Path × Entry} :
    x ∈ allBelow dir (.directory entries) ↔ dir.isUsable = true ∧ x ∈ allOf dir entries := by
  rw [allBelow, List.mem_ite_nil_right]

mutual

/-- What is below a directory of a file tree is found there. -/
theorem foundAt_of_mem_allBelow {d : Disk} (htree : d.IsFileTree) {q : Path} {found : Entry} :
    ∀ (e : Entry) {dir : Path} {m : List String}, d.root.at? m = some e →
      (e.isDirectory = true → Stands d dir m) → (q, found) ∈ allBelow dir e →
      ∃ m', FoundAt d q found m'
  | .file _, _, _, _, _, hmem => absurd hmem List.not_mem_nil
  | .directory entries, _, _, hat, hdir, hmem =>
    foundAt_of_mem_allOf htree entries (hdir rfl) (Disk.node?_eq_directory_iff.2 ⟨_, hat⟩)
      (fun _ _ he => ⟨htree.isName hat he, htree.at?_child hat he⟩)
      (mem_allBelow_directory.1 hmem).2

/-- What named entries and those below them are found as. -/
theorem foundAt_of_mem_allOf {d : Disk} (htree : d.IsFileTree) {q : Path} {found : Entry} :
    ∀ (entries : List (String × Entry)) {dir : Path} {m : List String}, Stands d dir m →
      d.node? m = some .directory →
      (∀ name e, (name, e) ∈ entries → IsName name ∧ d.root.at? (m ++ [name]) = some e) →
      (q, found) ∈ allOf dir entries → ∃ m', FoundAt d q found m'
  | [], _, _, _, _, _, hmem => absurd hmem List.not_mem_nil
  | (name, e) :: entries, _, m, hdir, hm, hentries, hmem => by
    have hchild := hentries name e List.mem_cons_self
    have hfound := foundAt_below hdir hm hchild.1 hchild.2
    rw [allOf, List.mem_cons, List.mem_append] at hmem
    obtain heq | hmem | hmem := hmem
    · obtain ⟨rfl, rfl⟩ := Prod.mk.inj heq
      exact ⟨_, hfound⟩
    · exact foundAt_of_mem_allBelow htree e hchild.2 hfound.stands hmem
    · exact foundAt_of_mem_allOf htree entries hdir hm
        (fun name e he => hentries name e (List.mem_cons_of_mem _ he)) hmem

end

theorem FoundAt.pathExists {d : Disk} {q : Path} {e : Entry} {m : List String}
    (h : FoundAt d q e m) (husable : q.isUsable = true) : d.pathExists q = true :=
  Disk.pathExists_iff.2 ⟨m, h.locate?_eq husable⟩

/-- A name can be looked up below a path. -/
def isPresent (d : Disk) (path : Path) (name : String) : Bool :=
  if name = "." ∨ name = ".." then d.isDirectory path else d.pathExists (below path name)

section Existing

variable {d : Disk} (htree : d.IsFileTree) {path q : Path} {e found : Entry}
include htree

theorem pathExists_of_mem_allBelow (he : d.entry? path = some e)
    (hmem : (q, found) ∈ allBelow path e) (husable : q.isUsable = true) :
    d.pathExists q = true := by
  obtain ⟨m, hm, hat⟩ := Option.bind_eq_some_iff.1 he
  have hstands : e.isDirectory = true → Stands d path m := fun hdirectory => by
    obtain ⟨entries, rfl⟩ := Entry.isDirectory_iff.1 hdirectory
    exact stands_of_locate? hm (Disk.node?_eq_directory_iff.2 ⟨entries, hat⟩)
  obtain ⟨m', hfound⟩ := foundAt_of_mem_allBelow htree e hat hstands hmem
  exact hfound.pathExists husable

theorem pathExists_of_mem_childrenOf (he : d.entry? path = some e)
    (hmem : (q, found) ∈ childrenOf path e) (husable : q.isUsable = true) :
    d.pathExists q = true := by
  obtain ⟨m, hm, hat⟩ := Option.bind_eq_some_iff.1 he
  obtain ⟨⟨name, child⟩, hchild, heq⟩ := List.mem_map.1 hmem
  obtain ⟨rfl, rfl⟩ := Prod.mk.inj heq
  cases e with
  | file => exact absurd hchild List.not_mem_nil
  | directory entries =>
    have hdirectory := Disk.node?_eq_directory_iff.2 ⟨entries, hat⟩
    exact (foundAt_below (stands_of_locate? hm hdirectory) hdirectory (htree.isName hat hchild)
      (htree.at?_child hat hchild)).pathExists husable

omit htree in
/-- One point or two lead from a directory to a directory. -/
theorem exists_walk_point (hpath : d.isDirectory path = true) {name : String}
    (hname : name = "." ∨ name = "..") :
    ∃ m m', d.locate? path = some m ∧ d.node? m = some .directory ∧ '/' ∉ name.toList ∧
      name ≠ "" ∧ d.walk m [name] = some m' := by
  obtain ⟨m, hm, hnode⟩ := Disk.isDirectory_iff.1 hpath
  have hwalk : ∃ m', d.walk m [name] = some m' := by
    rw [Disk.walk_cons hnode]
    obtain rfl | rfl := hname
    · exact ⟨_, Disk.walk_nil (hnode ▸ Option.some_ne_none _)⟩
    · exact ⟨_, Disk.walk_nil (Disk.node?_dropLast hnode ▸ Option.some_ne_none _)⟩
  obtain ⟨m', hm'⟩ := hwalk
  refine ⟨m, m', hm, hnode, ?_, ?_, hm'⟩ <;> obtain rfl | rfl := hname <;> decide

omit htree in
/-- A name that can be looked up below a path leads to one that exists, if the disk takes it. -/
theorem pathExists_of_isPresent {name : String} (h : isPresent d path name = true)
    (husable : (below path name).isUsable = true) : d.pathExists (below path name) = true := by
  rw [isPresent] at h
  split at h
  · next hpoint =>
    obtain ⟨m, m', hm, hdirectory, hslash, hne, hwalk⟩ := exists_walk_point h hpoint
    exact Disk.pathExists_iff.2
      ⟨m', (Disk.locate?_below hm hdirectory hslash hne husable).trans hwalk⟩
  · exact h

omit htree in
/-- So does one point or two joined to the path of a directory. -/
theorem pathExists_join_point (hpath : d.isDirectory path = true) {name : String}
    (hname : name = "." ∨ name = "..") (husable : (path.join ⟨name⟩).isUsable = true) :
    d.pathExists (path.join ⟨name⟩) = true := by
  obtain ⟨m, m', hm, hdirectory, hslash, -, hwalk⟩ := exists_walk_point hpath hname
  exact Disk.pathExists_iff.2 ⟨m', (Disk.locate?_join hm hdirectory hslash husable).trans hwalk⟩

/-- Every path to which patterns lead exists, if the disk takes it. -/
theorem pathExists_of_mem_expand {patterns : List Pattern}
    (hpath : path.isUsable = true → d.pathExists path = true) (hq : q ∈ expand d patterns path)
    (husable : q.isUsable = true) : d.pathExists q = true := by
  fun_induction expand d patterns path with
  -- At the end the path itself is found.
  | case1 path => exact List.mem_singleton.1 hq ▸ hpath (List.mem_singleton.1 hq ▸ husable)
  | case2 => exact absurd hq List.not_mem_nil
  | case3 path e he =>
    obtain ⟨⟨_, found⟩, hmem, rfl⟩ := List.mem_map.1 hq
    exact pathExists_of_mem_allBelow htree he (List.mem_filter.1 hmem).1 husable
  | case4 => exact absurd hq List.not_mem_nil
  | case5 next rest path e he ih =>
    obtain ⟨⟨q', found⟩, hmem, hrest⟩ := List.mem_flatMap.1 hq
    dsimp only at hrest
    split at hrest
    · exact ih q' (pathExists_of_mem_allBelow htree he hmem) hrest
    · exact absurd hrest List.not_mem_nil
  | case6 atoms rest path cs hliteral name next present hpresent ih =>
    exact ih (pathExists_of_isPresent hpresent) hq
  | case7 => exact absurd hq List.not_mem_nil
  | case8 atoms rest path hliteral pattern found special ih =>
    -- A pattern that is matched leads to entries of the directory, or to its points.
    obtain hq | hq := List.mem_append.1 hq
    · obtain ⟨⟨q', c⟩, hmem, hrest⟩ := List.mem_flatMap.1 hq
      refine ih (q', c) (fun hfound => ?_) hrest
      have hchild : (q', c) ∈ ((d.entry? path).map (childrenOf path)).getD [] :=
        (List.mem_filter.1 hmem).1
      cases he : d.entry? path with
      | none =>
        rw [he] at hchild
        exact absurd hchild List.not_mem_nil
      | some e =>
        rw [he] at hchild
        exact pathExists_of_mem_childrenOf htree he hchild hfound
    · obtain ⟨q', hmem, hrest⟩ := List.mem_flatMap.1 hq
      -- Only the premise of the induction hypothesis needs an entry beside the path.
      refine ih (q', .file none) (fun hfound => ?_) hrest
      change q' ∈ (if pattern.startsWithPoint && d.isDirectory path then _ else []) at hmem
      split at hmem
      · next hspecial =>
        rw [Bool.and_eq_true] at hspecial
        obtain ⟨name, hname, rfl⟩ := List.mem_map.1 hmem
        exact pathExists_join_point hspecial.2 (by simpa using (List.mem_filter.1 hname).1) hfound
      · exact absurd hmem List.not_mem_nil

/-- Everything that is found exists, if the disk takes its path. -/
theorem pathExists_of_mem_find {pattern : Path} (hq : q ∈ find d pattern)
    (husable : q.isUsable = true) : d.pathExists q = true := by
  have hbase : d.pathExists (if pattern.isAbsolute then ⟨"/"⟩ else ⟨"."⟩) = true := by
    have hidle : ∀ p : Path, p.isEmpty = false → p.isUsable = true → AllIdle p.pieces →
        d.pathExists p = true := fun p hempty husable hidle =>
      Disk.pathExists_iff.2 ⟨_, Disk.locate?_eq_some_iff.2
        ⟨hempty, husable, Disk.walk_idle (htree.start p) hidle⟩⟩
    split
    · exact hidle _ (by decide) (by decide) (by decide)
    · exact hidle _ (by decide) (by decide) (by decide)
  unfold find at hq
  split at hq
  · exact absurd hq List.not_mem_nil
  · dsimp only at hq
    split at hq
    · exact pathExists_of_mem_expand htree (fun _ => hbase) (List.mem_filter.1 hq).1 husable
    · exact pathExists_of_mem_expand htree (fun _ => hbase) hq husable

end Existing

end Glob

/-- A token file that is found is there, if the disk takes its path. -/
theorem of_mem_findTokenFiles {d : Disk} (htree : d.IsFileTree) {dir input : Path}
    (h : input ∈ findTokenFiles d dir) :
    isTokenFile input = true ∧ (input.isUsable = true → d.pathExists input = true) := by
  rw [findTokenFiles, List.mem_mergeSort, List.mem_filter] at h
  obtain ⟨extension, -, hfound⟩ := List.mem_flatMap.1 h.1
  exact ⟨h.2, Glob.pathExists_of_mem_find htree hfound⟩

end GridStyle
