import GridStyle.Proofs.Files.OutputPath
import GridStyle.Proofs.Files.PathOrder
import GridStyle.Proofs.Files.PlainDirectory
import GridStyle.Proofs.Files.Siblings
import Mathlib.Data.List.Nodup

/-!
# The Token Files Below a Directory

A search in a plain directory (`Glob.IsPlain`) leads to that directory (`Glob.exists_follow`),
unless its path starts with a point and an empty piece. Then it finds everything below that has the
name of a token file, each under one path and in the order of paths, down to the directories whose
paths get too long (`token_files_found`). Names are all that counts: a directory with the name of a
token file is found, too, and a directory whose own name is a pattern may not be
(`search_misses_files`).
-/

namespace GridStyle

open GridStyle.Path

/-! ### What is below a directory -/

namespace Entry

mutual

/-- The locations of everything below an entry. -/
def locations : Entry → List (List String)
  | .file _ => []
  | .directory entries => locationsOf entries

/-- The locations of named entries and of everything below them. -/
def locationsOf : List (String × Entry) → List (List String)
  | [] => []
  | (name, e) :: rest => [name] :: (e.locations.map (name :: ·) ++ locationsOf rest)

end

mutual

/-- The locations below a tree are those at which something is, but for that of the tree. -/
theorem mem_locations : ∀ {e : Entry}, e.isTree = true → ∀ {m : List String},
    (m ∈ e.locations ↔ m ≠ [] ∧ (e.at? m).isSome)
  | .file _, _, m => by
    rw [locations]
    refine iff_of_false List.not_mem_nil ?_
    rintro ⟨hne, hsome⟩
    obtain ⟨name, rest, rfl⟩ := List.exists_cons_of_ne_nil hne
    obtain ⟨found, hfound⟩ := Option.isSome_iff_exists.1 hsome
    obtain ⟨entries, -, heq, -⟩ := exists_child_of_at? hfound
    cases heq
  | .directory entries, he, m => by
    rw [isTree, Bool.and_eq_true, decide_eq_true_eq] at he
    rw [locations, mem_locationsOf he.2]
    constructor
    · rintro ⟨name, child, rest, hchild, rfl, hrest⟩
      refine ⟨List.cons_ne_nil _ _, ?_⟩
      rwa [at?_cons, lookup_of_mem he.1 hchild]
    · rintro ⟨hne, hsome⟩
      obtain ⟨name, rest, rfl⟩ := List.exists_cons_of_ne_nil hne
      rw [at?_cons] at hsome
      cases hlookup : entries.lookup name with
      | none => rw [hlookup] at hsome; exact absurd hsome (by simp)
      | some child =>
        rw [hlookup] at hsome
        obtain ⟨before, after, rfl, -⟩ := List.lookup_eq_some_iff.1 hlookup
        exact ⟨name, child, rest, by simp, rfl, hsome⟩

theorem mem_locationsOf : ∀ {entries : List (String × Entry)}, areTrees entries = true →
    ∀ {m : List String}, (m ∈ locationsOf entries ↔
      ∃ name child rest, (name, child) ∈ entries ∧ m = name :: rest ∧ (child.at? rest).isSome)
  | [], _, m => by simp [locationsOf]
  | (name, e) :: entries, h, m => by
    rw [areTrees, Bool.and_eq_true, Bool.and_eq_true] at h
    -- The entry itself is at the location of its name, and what it holds is below.
    have hfirst : m ∈ [name] :: e.locations.map (name :: ·) ↔
        ∃ rest, m = name :: rest ∧ (e.at? rest).isSome := by
      simp only [List.mem_cons, List.mem_map, mem_locations h.1.2]
      constructor
      · rintro (rfl | ⟨rest, hrest, rfl⟩)
        · exact ⟨[], rfl, rfl⟩
        · exact ⟨rest, rfl, hrest.2⟩
      · rintro ⟨rest, rfl, hrest⟩
        by_cases hnil : rest = []
        · exact .inl (by rw [hnil])
        · exact .inr ⟨rest, ⟨hnil, hrest⟩, rfl⟩
    rw [locationsOf, ← List.cons_append, List.mem_append, hfirst, mem_locationsOf h.2]
    simp only [List.mem_cons, Prod.mk.injEq]
    constructor
    · rintro (⟨rest, hm, hrest⟩ | ⟨name', child, rest, hmem, hm, hrest⟩)
      · exact ⟨name, e, rest, .inl ⟨rfl, rfl⟩, hm, hrest⟩
      · exact ⟨name', child, rest, .inr hmem, hm, hrest⟩
    · rintro ⟨name', child, rest, ⟨rfl, rfl⟩ | hmem, hm, hrest⟩
      · exact .inl ⟨rest, hm, hrest⟩
      · exact .inr ⟨name', child, rest, hmem, hm, hrest⟩

end

mutual

/-- Every location is listed once. -/
theorem nodup_locations : ∀ {e : Entry}, e.isTree = true → e.locations.Nodup
  | .file _, _ => List.nodup_nil
  | .directory entries, he => by
    rw [isTree, Bool.and_eq_true, decide_eq_true_eq] at he
    exact nodup_locationsOf he.2 he.1

theorem nodup_locationsOf : ∀ {entries : List (String × Entry)}, areTrees entries = true →
    (entries.map Prod.fst).Nodup → (locationsOf entries).Nodup
  | [], _, _ => List.nodup_nil
  | (name, e) :: entries, h, hnames => by
    rw [areTrees, Bool.and_eq_true, Bool.and_eq_true] at h
    rw [List.map_cons, List.nodup_cons] at hnames
    have hbelow : (e.locations.map (name :: ·)).Nodup :=
      List.Nodup.map (fun _ _ heq => (List.cons.inj heq).2) (nodup_locations h.1.2)
    have hself : [name] ∉ e.locations.map (name :: ·) := by
      rw [List.mem_map]
      rintro ⟨rest, hrest, heq⟩
      exact ((mem_locations h.1.2).1 hrest).1 (List.cons.inj heq).2
    have hfirst : ∀ m ∈ [name] :: e.locations.map (name :: ·), m.head? = some name := by
      intro m hm
      rw [List.mem_cons, List.mem_map] at hm
      rcases hm with rfl | ⟨rest, -, rfl⟩ <;> rfl
    rw [locationsOf, ← List.cons_append]
    refine List.Nodup.append (List.nodup_cons.2 ⟨hself, hbelow⟩) (nodup_locationsOf h.2 hnames.2) ?_
    -- Other entries have other names.
    intro m hm hm'
    obtain ⟨name', child, rest, hmem, rfl, -⟩ := (mem_locationsOf h.2).1 hm'
    obtain rfl : name' = name := Option.some.inj (hfirst _ hm)
    exact hnames.1 (List.mem_map.2 ⟨_, hmem, rfl⟩)

end

theorem ne_nil_of_mem_locationsOf {entries : List (String × Entry)} {m : List String}
    (h : m ∈ locationsOf entries) : m ≠ [] := by
  induction entries with
  | nil => exact absurd h List.not_mem_nil
  | cons entry entries ih =>
    rw [locationsOf, List.mem_cons, List.mem_append, List.mem_map] at h
    obtain rfl | ⟨rest, -, rfl⟩ | h := h
    · exact List.cons_ne_nil _ _
    · exact List.cons_ne_nil _ _
    · exact ih h

/-- Locations of a tree are made of names. -/
theorem isName_of_at? {e : Entry} (he : e.isTree = true) {m : List String}
    (h : (e.at? m).isSome) : ∀ name ∈ m, IsName name := by
  induction m generalizing e with
  | nil => exact fun _ hmem => absurd hmem List.not_mem_nil
  | cons name rest ih =>
    obtain ⟨found, hfound⟩ := Option.isSome_iff_exists.1 h
    obtain ⟨entries, child, rfl, hchild, hrest⟩ := exists_child_of_at? hfound
    rw [isTree, Bool.and_eq_true] at he
    obtain ⟨before, after, rfl, -⟩ := List.lookup_eq_some_iff.1 hchild
    have hmem : (name, child) ∈ before ++ (name, child) :: after := by simp
    obtain ⟨hname, htree⟩ := of_areTrees he.2 hmem
    rw [List.forall_mem_cons]
    exact ⟨hname, ih htree (by rw [hrest]; rfl)⟩

end Entry

namespace Glob

/-- The path under which the location below a directory is found. -/
def pathOf (dir : Path) (location : List String) : Path := location.foldl below dir

theorem pathOf_cons (dir : Path) (name : String) (rest : List String) :
    pathOf dir (name :: rest) = pathOf (below dir name) rest := rfl

theorem pathOf_concat (dir : Path) (location : List String) (name : String) :
    pathOf dir (location ++ [name]) = below (pathOf dir location) name := by
  rw [pathOf, List.foldl_append]
  rfl

/-- The disk takes the paths of the directories on the way to a location below a directory. -/
def pathsUsable (dir : Path) : List String → Bool
  | [] => true
  | name :: rest => dir.isUsable && pathsUsable (below dir name) rest

mutual

/-- What is below a directory is listed under the paths of its locations, as far as the disk takes
the paths of directories. -/
theorem paths_allBelow : ∀ (e : Entry) (dir : Path),
    (allBelow dir e).map Prod.fst = (e.locations.filter (pathsUsable dir)).map (pathOf dir)
  | .file _, _ => rfl
  | .directory entries, dir => by
    rw [allBelow, Entry.locations]
    split
    · next husable => exact paths_allOf entries husable
    · next husable =>
      have hnone : (Entry.locationsOf entries).filter (pathsUsable dir) = [] := by
        rw [List.filter_eq_nil_iff]
        intro m hm
        obtain ⟨name, rest, rfl⟩ :=
          List.exists_cons_of_ne_nil (Entry.ne_nil_of_mem_locationsOf hm)
        simp [pathsUsable, husable]
      rw [hnone]
      rfl

theorem paths_allOf : ∀ (entries : List (String × Entry)) {dir : Path}, dir.isUsable = true →
    (allOf dir entries).map Prod.fst =
      ((Entry.locationsOf entries).filter (pathsUsable dir)).map (pathOf dir)
  | [], _, _ => rfl
  | (name, e) :: entries, dir, husable => by
    have hself : pathsUsable dir [name] = true := by rw [pathsUsable, husable]; rfl
    have hbelow : pathsUsable dir ∘ (name :: ·) = pathsUsable (below dir name) := by
      funext rest
      rw [Function.comp_apply, pathsUsable, husable, Bool.true_and]
    rw [allOf, Entry.locationsOf, List.filter_cons_of_pos hself, List.filter_append,
      List.filter_map, hbelow, List.map_cons, List.map_append, List.map_cons, List.map_append,
      List.map_map, paths_allBelow e, paths_allOf entries husable]
    rfl

end

theorem tokensBelow_eq (dir : Path) (e : Entry) :
    tokensBelow dir e =
      ((e.locations.filter (pathsUsable dir)).map (pathOf dir)).filter isTokenFile := by
  rw [tokensBelow, paths_allBelow]

theorem pathsUsable_concat (dir : Path) (front : List String) (name : String) :
    pathsUsable dir (front ++ [name]) =
      (pathsUsable dir front && (pathOf dir front).isUsable) := by
  induction front generalizing dir with
  | nil => simp [pathsUsable, pathOf]
  | cons first front ih =>
    rw [List.cons_append, pathsUsable, ih, pathsUsable, pathOf_cons, Bool.and_assoc]

/-- Components that a path below a directory starts with. -/
def leading (dir : Path) : List Component := if dir.same ⟨"."⟩ then [] else dir.components

theorem components_below {dir : Path} (hdir : dir.isEmpty = false) {name : String}
    (hname : IsName name) : (below dir name).components = leading dir ++ [.name name] := by
  have hpiece (first : Bool) : Component.ofPiece? first name = some (.name name) :=
    ofPiece?_eq_name_iff.2 ⟨hname.notIdle, hname.notUp, rfl⟩
  rw [below, leading]
  split
  · rw [components_eq (pieces_name hname.noSlash), isAbsolute_name hname.noSlash, hpiece]
    rfl
  · rw [components_join hdir hname.noSlash, hpiece]
    rfl

/-- The components of a path below a directory end in its location. -/
theorem components_pathOf {dir : Path} (hdir : dir.isEmpty = false) {location : List String}
    (hnames : ∀ name ∈ location, IsName name) (hne : location ≠ []) :
    (pathOf dir location).components = leading dir ++ location.map .name := by
  induction location generalizing dir with
  | nil => exact absurd rfl hne
  | cons name rest ih =>
    rw [List.forall_mem_cons] at hnames
    have hcomponents := components_below hdir hnames.1
    by_cases hrest : rest = []
    · subst hrest
      exact hcomponents
    · obtain ⟨front, hends⟩ := endsIn_below dir hnames.1
      have hempty : (below dir name).isEmpty = false := by
        rw [Bool.eq_false_iff, ne_eq, isEmpty_iff_pieces]
        intro hpieces
        obtain ⟨idle, -, heq⟩ := hends.2
        have hmem : name ∈ (below dir name).pieces := by simp [heq]
        rw [hpieces, List.mem_singleton] at hmem
        exact hnames.1.ne_empty hmem
      rw [pathOf_cons, ih hempty hnames.2 hrest, leading, hends.not_same,
        if_neg Bool.false_ne_true, hcomponents, List.append_assoc]
      rfl

/-- A path below a directory ends in the name at the end of its location. -/
theorem endsIn_pathOf (dir : Path) {location : List String}
    (hnames : ∀ name ∈ location, IsName name) (hne : location ≠ []) :
    ∃ front name, IsName name ∧ (pathOf dir location).EndsIn front name := by
  obtain ⟨before, name, rfl⟩ := (List.eq_nil_or_concat location).resolve_left hne
  rw [List.concat_eq_append] at hnames ⊢
  have hname := hnames name (by simp)
  rw [pathOf_concat]
  obtain ⟨front, hends⟩ := endsIn_below (pathOf dir before) hname
  exact ⟨front, name, hname, hends⟩

/-- The paths of directories get longer on the way down, so the last one counts. -/
theorem pathsUsable_concat_iff {dir : Path} (hdir : dir.isUsable = true) {front : List String}
    (hnames : ∀ name ∈ front, IsName name) (name : String) :
    pathsUsable dir (front ++ [name]) = true ↔ (pathOf dir front).isUsable = true := by
  rw [pathsUsable_concat, Bool.and_eq_true, and_iff_right_iff_imp]
  induction front using List.reverseRecOn generalizing name with
  | nil => exact fun _ => rfl
  | append_singleton front last ih =>
    intro husable
    have hfront : ∀ name ∈ front, IsName name := fun name hmem =>
      hnames name (List.mem_append_left _ hmem)
    have habove : (pathOf dir front).isUsable = true := by
      by_cases hnil : front = []
      · rw [hnil]
        exact hdir
      · obtain ⟨before, above, -, hends⟩ := endsIn_pathOf dir hfront hnil
        rw [pathOf_concat] at husable
        exact isUsable_of_below hends (hnames last (by simp)).noSlash husable
    rw [pathsUsable_concat, ih hfront last habove, habove, Bool.and_self]

/-- Everything below a directory of a file tree is found at its location. -/
theorem foundAt_pathOf {d : Disk} (htree : d.IsFileTree) {dir : Path} {m : List String}
    (hdir : Stands d dir m) (hm : d.node? m = some .directory) {location : List String}
    (hne : location ≠ []) {found : Entry} (hfound : d.root.at? (m ++ location) = some found) :
    FoundAt d (pathOf dir location) found (m ++ location) := by
  induction location generalizing dir m with
  | nil => exact absurd rfl hne
  | cons name rest ih =>
    have hlocation : m ++ name :: rest = m ++ [name] ++ rest := List.append_cons m name rest
    rw [hlocation] at hfound ⊢
    have hname : IsName name :=
      Entry.isName_of_at? htree.isTree (by rw [hfound]; rfl) name (by simp)
    rw [Entry.at?_append, Option.bind_eq_some_iff] at hfound
    obtain ⟨child, hchild, hrest⟩ := hfound
    have hbelow := foundAt_below hdir hm hname hchild
    rw [pathOf_cons]
    cases rest with
    | nil =>
      obtain rfl : child = found := Option.some.inj hrest
      rw [List.append_nil]
      exact hbelow
    | cons next rest =>
      -- Something is below the entry, so it is a directory.
      obtain ⟨entries, -, rfl, -⟩ := Entry.exists_child_of_at? hrest
      refine ih (hbelow.stands rfl) (Disk.node?_eq_directory_iff.2 ⟨_, hchild⟩)
        (List.cons_ne_nil _ _) ?_
      rw [Entry.at?_append, hchild]
      exact hrest

/-! ### Names that a search asks for -/

theorem eq_of_matchAtoms_map_char {cs ds : List Char} (h : matchAtoms (cs.map .char) ds = true) :
    ds = cs := by
  induction cs generalizing ds with
  | nil => simpa [matchAtoms] using h
  | cons c cs ih =>
    cases ds with
    | nil => simp [matchAtoms] at h
    | cons d ds =>
      rw [List.map_cons, matchAtoms, Bool.and_eq_true, beq_iff_eq] at h
      rw [h.1, ih h.2]

theorem exists_of_someTail {p : List Char → Bool} {cs : List Char} (h : someTail p cs = true) :
    ∃ tail, tail <:+ cs ∧ p tail = true := by
  induction cs with
  | nil => exact ⟨[], List.suffix_refl _, h⟩
  | cons c cs ih =>
    rw [someTail, Bool.or_eq_true] at h
    rcases h with h | h
    · exact ⟨c :: cs, List.suffix_refl _, h⟩
    · obtain ⟨tail, htail, hp⟩ := ih h
      exact ⟨tail, htail.trans (List.suffix_cons c cs), hp⟩

/-- A name with an extension ends in it. -/
theorem suffix_of_accepts_ending {name extension : String}
    (h : (ending extension).accepts name = true) : ("." ++ extension).toList <:+ name.toList := by
  rw [ending, Pattern.accepts, matchAtoms] at h
  obtain ⟨tail, htail, hmatch⟩ := exists_of_someTail h
  rwa [eq_of_matchAtoms_map_char hmatch] at htail

/-- A name has one of the extensions of token files at most. -/
theorem extension_unique {name : String} (hjson : (ending "json").accepts name = true)
    (hjson5 : (ending "json5").accepts name = true) : False := by
  rcases List.suffix_or_suffix_of_suffix (suffix_of_accepts_ending hjson)
    (suffix_of_accepts_ending hjson5) with h | h
  · exact absurd h (by decide)
  · exact absurd h (by decide)

/-- A token file has one of the extensions, and only one. -/
theorem accepts_json5_eq_not {name : String} (hname : IsName name)
    (htoken : isTokenFile ⟨name⟩ = true) :
    (ending "json5").accepts name = !(ending "json").accepts name := by
  obtain ⟨stem, extension, hextension, rfl⟩ := exists_of_isTokenFile hname htoken
  have haccepts := accepts_ending stem extension
  simp only [tokenExtensions, List.mem_cons, List.not_mem_nil, or_false] at hextension
  rcases hextension with rfl | rfl
  · have hnot : (ending "json5").accepts (stem ++ "." ++ "json") = false :=
      Bool.eq_false_iff.2 fun hother => extension_unique haccepts hother
    rw [haccepts, hnot, Bool.not_true]
  · have hnot : (ending "json").accepts (stem ++ "." ++ "json5") = false :=
      Bool.eq_false_iff.2 fun hother => extension_unique hother haccepts
    rw [haccepts, hnot, Bool.not_false]

/-- The two searches find every token file below a directory once. -/
theorem findTokenFiles_perm {d : Disk} {source base : Path} {e : Entry}
    (hplain : ∀ c ∈ source.text.toList, IsPlain c)
    (hfollow : follow d (namesOf source) (baseOf source) = some base)
    (he : d.entry? base = some e) (htree : e.isTree = true) :
    (findTokenFiles d source).Perm (tokensBelow base e) := by
  have hfind : ∀ extension ∈ tokenExtensions,
      (find d ⟨source.text ++ "/**/*." ++ extension⟩).filter isTokenFile =
        (tokensBelow base e).filter fun q => q.fileName?.any (ending extension).accepts := by
    intro extension hextension
    rw [find_tokenPattern hplain hextension, expand_words, hfollow, Option.map_some,
      Option.getD_some, filter_expand_tokens he]
  have hother : ∀ q ∈ tokensBelow base e, q.fileName?.any (ending "json5").accepts =
      !q.fileName?.any (ending "json").accepts := by
    intro q hq
    rw [tokensBelow_eq, List.mem_filter, List.mem_map] at hq
    obtain ⟨⟨location, hlisted, rfl⟩, htoken⟩ := hq
    have hlocation := (Entry.mem_locations htree).1 (List.mem_filter.1 hlisted).1
    obtain ⟨front, name, hname, hends⟩ :=
      endsIn_pathOf base (Entry.isName_of_at? htree hlocation.2) hlocation.1
    rw [isTokenFile_of_endsIn hends] at htoken
    rw [hends.fileName?_eq, Option.any_some, Option.any_some]
    exact accepts_json5_eq_not hname htoken
  -- Every token file is found by exactly one of the searches.
  refine (List.mergeSort_perm _ _).trans ?_
  rw [List.filter_flatMap, List.flatMap_congr hfind]
  simp only [tokenExtensions, List.flatMap_cons, List.flatMap_nil, List.append_nil]
  rw [List.filter_congr hother]
  exact List.filter_append_perm _ _

/-- Different locations below a directory have paths with different components. -/
theorem pairwise_tokensBelow {base : Path} (hbase : base.isEmpty = false) {e : Entry}
    (htree : e.isTree = true) :
    (tokensBelow base e).Pairwise fun p q => p.components ≠ q.components := by
  rw [tokensBelow_eq]
  refine List.Pairwise.filter _ (List.pairwise_map.2 ?_)
  refine ((Entry.nodup_locations htree).filter _).imp_of_mem fun hlisted hlisted' hne heq => hne ?_
  have hlocation := (Entry.mem_locations htree).1 (List.mem_filter.1 hlisted).1
  have hlocation' := (Entry.mem_locations htree).1 (List.mem_filter.1 hlisted').1
  rw [components_pathOf hbase (Entry.isName_of_at? htree hlocation.2) hlocation.1,
    components_pathOf hbase (Entry.isName_of_at? htree hlocation'.2) hlocation'.1,
    List.append_cancel_left_eq] at heq
  exact List.map_injective_iff.2 (fun _ _ => Component.name.inj) heq

end Glob

/-! ### The search -/

/-- What a search found is all below the directory at `m` that has the name of a token file, under
the path `base` of the directory. -/
structure ListsTokens (d : Disk) (m : List String) (base : Path) (found : List Path) : Prop where
  /-- The path leads to the directory. -/
  locate? : d.locate? base = some m
  /-- The paths stand in their order. -/
  ordered : found.Pairwise fun p q => p.before q = true
  /-- Each path stands there once. -/
  nodup : found.Nodup
  /-- The paths are those of all entries at any depth, files or directories, for which they are
  paths of token files, in directories whose paths the disk takes. -/
  mem_iff : ∀ q, q ∈ found ↔ isTokenFile q = true ∧
    ∃ location e, location ≠ [] ∧ d.root.at? (m ++ location) = some e ∧
      (Glob.pathOf base location.dropLast).isUsable = true ∧ q = Glob.pathOf base location
  /-- The path of an entry leads to it, if the disk takes the path. -/
  locate?_pathOf : ∀ location e, location ≠ [] → d.root.at? (m ++ location) = some e →
    (Glob.pathOf base location).isUsable = true →
      d.locate? (Glob.pathOf base location) = some (m ++ location)

namespace ListsTokens

variable {d : Disk} {m : List String} {base : Path} {found : List Path}

/-- Without directories that have names of token files only files are found. -/
theorem mem_iff_file (h : ListsTokens d m base found)
    (hnames : ∀ location, location ≠ [] → d.isDirectoryAt (m ++ location) = true →
      isTokenFile (Glob.pathOf base location) = false) (q : Path) :
    q ∈ found ↔ isTokenFile q = true ∧ ∃ location text, location ≠ [] ∧
      d.root.at? (m ++ location) = some (.file text) ∧
      (Glob.pathOf base location.dropLast).isUsable = true ∧ q = Glob.pathOf base location := by
  rw [h.mem_iff]
  refine and_congr_right fun htoken => ?_
  constructor
  · rintro ⟨location, e, hne, hat, habove, rfl⟩
    cases e with
    | file text => exact ⟨location, text, hne, hat, habove, rfl⟩
    | directory entries =>
      have hdirectory : d.isDirectoryAt (m ++ location) = true := by
        rw [Disk.isDirectoryAt, hat]
        rfl
      rw [hnames location hne hdirectory] at htoken
      exact absurd htoken Bool.false_ne_true
  · rintro ⟨location, text, hne, hat, habove, rfl⟩
    exact ⟨location, .file text, hne, hat, habove, rfl⟩

end ListsTokens

/-- From a path that hides where it starts nothing is found. -/
theorem findTokenFiles_hidden (d : Disk) {dir : Path}
    (hplain : ∀ c ∈ dir.text.toList, Glob.IsPlain c) (hstart : dir.hidesStart = true) :
    findTokenFiles d dir = [] := by
  rw [hidesStart, Bool.and_eq_true, beq_iff_eq, beq_iff_eq] at hstart
  have hroot : ¬ dir.pieces.head? = some "" := by
    rw [hstart.1]
    decide
  have hfind : ∀ extension ∈ tokenExtensions,
      Glob.find d ⟨dir.text ++ "/**/*." ++ extension⟩ = [] := by
    intro extension hextension
    rw [Glob.find_tokenPattern hplain hextension, Glob.expand_words, Glob.namesOf, Glob.baseOf,
      if_neg hroot, if_neg hroot, Glob.follow_hidden d hstart.2]
    rfl
  rw [findTokenFiles, List.flatMap_eq_nil_iff.2 hfind, List.filter_nil, List.mergeSort_nil]

/-- In a directory with a plain name, a search finds exactly the entries at any depth that have
names of token files, each once and in the order of paths, unless the path of the directory hides
where it starts. Then nothing is found. Nothing is found either in a directory below whose path the
disk does not take. If no directory has the name of a token file, the entries are exactly the files.
-/
theorem token_files_found {d : Disk} (htree : d.IsFileTree) {dir : Path}
    (hplain : ∀ c ∈ dir.text.toList, Glob.IsPlain c) {m : List String}
    (hdir : d.locate? dir = some m) (hm : d.isDirectoryAt m = true) :
    (dir.hidesStart = true → findTokenFiles d dir = []) ∧
    (dir.hidesStart = false → ∃ base, ListsTokens d m base (findTokenFiles d dir) ∧
      ((∀ location, location ≠ [] → d.isDirectoryAt (m ++ location) = true →
          isTokenFile (Glob.pathOf base location) = false) →
        ∀ q, q ∈ findTokenFiles d dir ↔ isTokenFile q = true ∧ ∃ location text, location ≠ [] ∧
          d.root.at? (m ++ location) = some (.file text) ∧
          (Glob.pathOf base location.dropLast).isUsable = true ∧
          q = Glob.pathOf base location)) := by
  refine ⟨findTokenFiles_hidden d hplain, fun hstart => ?_⟩
  obtain ⟨base, hfollow, hbase⟩ := Glob.exists_follow htree hdir hstart
  have hnode := Disk.isDirectoryAt_iff.1 hm
  obtain ⟨entries, hat⟩ := Disk.node?_eq_directory_iff.1 hnode
  have hentry : d.entry? base = some (.directory entries) :=
    Option.bind_eq_some_iff.2 ⟨m, hbase, hat⟩
  have hbelow := Entry.isTree_of_at? htree.isTree hat
  have hperm := Glob.findTokenFiles_perm hplain hfollow hentry hbelow
  have hempty := (Disk.locate?_eq_some_iff.1 hbase).1
  -- Different locations have different paths, so the order of the list is strict.
  have hordered : (findTokenFiles d dir).Pairwise fun p q => p.before q = true := by
    have hdistinct := (hperm.pairwise_iff fun hne => Ne.symm hne).2
      (Glob.pairwise_tokensBelow hempty hbelow)
    exact ((pairwise_findTokenFiles d dir).and hdistinct).imp fun h => before_of_atMost h.1 h.2
  have hlists : ListsTokens d m base (findTokenFiles d dir) := by
    refine ⟨hbase, hordered, hordered.imp fun h heq => ?_, fun q => ?_,
      fun location e hne he husable => ?_⟩
    · rw [heq, before_iff] at h
      exact lt_irrefl _ h
    · rw [hperm.mem_iff, Glob.tokensBelow_eq, List.mem_filter, List.mem_map, and_comm]
      refine and_congr_right fun _ => exists_congr fun location => ?_
      rw [List.mem_filter, Entry.mem_locations hbelow, Entry.at?_append, hat, Option.bind_some,
        Option.isSome_iff_exists]
      have habove : ∀ e, location ≠ [] → Entry.at? (.directory entries) location = some e →
          (Glob.pathsUsable base location = true ↔
            (Glob.pathOf base location.dropLast).isUsable = true) := fun e hne he => by
        have hnames := Entry.isName_of_at? hbelow (by rw [he]; rfl)
        have hfront : ∀ name ∈ location.dropLast, IsName name := fun name hmem =>
          hnames name (List.dropLast_subset _ hmem)
        have hsplit := Glob.pathsUsable_concat_iff (Disk.locate?_eq_some_iff.1 hbase).2.1
          hfront (location.getLast hne)
        rwa [List.dropLast_append_getLast] at hsplit
      constructor
      · rintro ⟨⟨⟨hne, e, he⟩, husable⟩, rfl⟩
        exact ⟨e, hne, he, (habove e hne he).1 husable, rfl⟩
      · rintro ⟨e, hne, he, husable, rfl⟩
        exact ⟨⟨⟨hne, e, he⟩, (habove e hne he).2 husable⟩, rfl⟩
    · exact (Glob.foundAt_pathOf htree (Glob.stands_of_locate? hbase hnode) hnode hne he).locate?_eq
        husable
  exact ⟨base, hlists, hlists.mem_iff_file⟩

/-- A directory with a token file, a result and a token file further down. -/
def artDisk : Disk where
  root := .directory [("art", .directory [("a.json", .file (some "[]")),
    ("a.out.json", .file (some "")), ("x", .directory [("b.json5", .file (some "[]"))])])]

/-- The directory written with a point in front and a slash at the end. -/
theorem token_files_found_nested :
    (∃ base, ListsTokens artDisk ["art"] base (findTokenFiles artDisk ⟨"./art/"⟩)) ∧
      findTokenFiles artDisk ⟨"./art/"⟩ = [⟨"art/a.json"⟩, ⟨"art/x/b.json5"⟩] := by
  have hplain : ∀ c ∈ (⟨"./art/"⟩ : Path).text.toList, Glob.IsPlain c :=
    Text.forall_mem_of_all (by decide)
  have hdir : artDisk.locate? ⟨"./art/"⟩ = some ["art"] := by decide +kernel
  obtain ⟨base, hlists, -⟩ := (token_files_found (show artDisk.IsFileTree by decide +kernel) hplain
    hdir (by decide +kernel)).2 (by decide +kernel)
  exact ⟨⟨base, hlists⟩, findTokenFiles_of_sorted (by decide +kernel) (by decide +kernel)⟩

/-- A directory with the name of a pattern, and one with the name of a token file. -/
def markedDisk : Disk where
  root := .directory [("a[1]", .directory [("x.json", .file (some "[]"))]),
    ("b.json", .directory [])]

/-- A token file in a directory whose name is a pattern is missed, a directory is found as if it
were a token file, and nothing is found from a path that hides where it starts. -/
theorem search_misses_files :
    markedDisk.IsFileTree ∧
      (markedDisk.isDirectory ⟨"a[1]"⟩ = true ∧ markedDisk.isFile ⟨"a[1]/x.json"⟩ = true ∧
        isTokenFile ⟨"a[1]/x.json"⟩ = true ∧ findTokenFiles markedDisk ⟨"a[1]"⟩ = []) ∧
      (markedDisk.isDirectory ⟨"b.json"⟩ = true ∧
        findTokenFiles markedDisk ⟨"."⟩ = [⟨"a[1]/x.json"⟩, ⟨"b.json"⟩]) ∧
      markedDisk.isDirectory ⟨"./"⟩ = true ∧ findTokenFiles markedDisk ⟨"./"⟩ = [] := by
  refine ⟨?_, ⟨?_, ?_, ?_, ?_⟩, ⟨?_, ?_⟩, ?_, ?_⟩
  · decide +kernel
  · decide +kernel
  · decide +kernel
  · decide +kernel
  · exact findTokenFiles_of_sorted (by decide +kernel) List.Pairwise.nil
  · decide +kernel
  · exact findTokenFiles_of_sorted (by decide +kernel) (by decide +kernel)
  · decide +kernel
  · exact findTokenFiles_of_sorted (by decide +kernel) List.Pairwise.nil

end GridStyle
