import GridStyle.Proofs.Files.SecondSearch

/-!
# Token Files of One Directory

A search for token files goes to directories first, whatever extension is asked for, and then
through everything below them. So a directory of which it finds one token file under some path is
one of which it finds them all, under paths with the same parent (`exists_sibling`).
-/

namespace GridStyle

open GridStyle.Path

namespace Glob

/-! ### Names with an extension -/

theorem matchAtoms_map_char (cs : List Char) : matchAtoms (cs.map .char) cs = true := by
  induction cs with
  | nil => rfl
  | cons c cs ih => rw [List.map_cons, matchAtoms, beq_self_eq_true, Bool.true_and, ih]

theorem someTail_append {p : List Char → Bool} {back : List Char} (h : p back = true)
    (front : List Char) : someTail p (front ++ back) = true := by
  induction front with
  | nil => cases back <;> simp [someTail, h]
  | cons c front ih => rw [List.cons_append, someTail, ih, Bool.or_true]

theorem accepts_ending (stem extension : String) :
    (ending extension).accepts (stem ++ "." ++ extension) = true := by
  have hname : (stem ++ "." ++ extension).toList = stem.toList ++ ("." ++ extension).toList := by
    rw [String.append_assoc, String.toList_append]
  rw [ending, Pattern.accepts, matchAtoms, hname]
  exact someTail_append (matchAtoms_map_char _) _

/-! ### Up to the last wildcard -/

/-- Which wildcards are left out does not depend on the pattern at the end. -/
theorem exists_mergeWildcards (patterns : List Pattern) :
    ∃ front, front.getLast? ≠ some .anyDirectories ∧ ∀ atoms,
      mergeWildcards (patterns ++ [.anyDirectories, .named atoms]) =
        front ++ [.anyDirectories, .named atoms] := by
  induction patterns with
  | nil => exact ⟨[], nofun, fun _ => by simp [mergeWildcards]⟩
  | cons pattern patterns ih =>
    obtain ⟨front, hlast, hfront⟩ := ih
    cases pattern with
    | named atoms' =>
      refine ⟨.named atoms' :: front, ?_, fun atoms => ?_⟩
      · rw [List.getLast?_cons]
        cases hcases : front.getLast? with
        | none => simp
        | some last => simpa [hcases] using hlast
      · rw [List.cons_append, mergeWildcards, hfront]
        · rfl
        · simp
    | anyDirectories =>
      cases patterns with
      | nil => exact ⟨[], nofun, fun _ => by simp [mergeWildcards]⟩
      | cons next rest =>
        cases next with
        | anyDirectories => exact ⟨front, hlast, fun atoms => hfront atoms⟩
        | named atoms' =>
          have hmerge : ∀ atoms, mergeWildcards
              (.anyDirectories :: (.named atoms' :: rest ++ [.anyDirectories, .named atoms])) =
                .anyDirectories :: (front ++ [.anyDirectories, .named atoms]) := fun atoms => by
            rw [mergeWildcards, hfront]
            simp
          -- What was merged before starts with a pattern for names.
          have hne : front ≠ [] := by
            rintro rfl
            have hstart := hfront []
            rw [List.cons_append, mergeWildcards] at hstart
            · simp at hstart
            · simp
          refine ⟨.anyDirectories :: front, ?_, hmerge⟩
          obtain ⟨first, front, rfl⟩ := List.exists_cons_of_ne_nil hne
          rwa [List.getLast?_cons_cons]

theorem mem_expand_anyDirectories {d : Disk} {next : Pattern} {rest : List Pattern}
    {path q : Path} : q ∈ expand d (.anyDirectories :: next :: rest) path ↔
      ∃ e, d.entry? path = some e ∧ ∃ x ∈ allBelow path e,
        x.1.fileName?.any next.accepts = true ∧ q ∈ expand d rest x.1 := by
  rw [expand]
  cases d.entry? path with
  | none => simp
  | some e =>
    simp only [List.mem_flatMap, Option.some.injEq, exists_eq_left']
    refine exists_congr fun x => and_congr_right fun _ => ?_
    split <;> simp_all

/-- A pattern for names leads to the same paths whatever follows. -/
theorem exists_expand_named (d : Disk) (atoms : List Atom) (path : Path) :
    ∃ paths : List Path, ∀ patterns,
      expand d (.named atoms :: patterns) path = paths.flatMap (expand d patterns) := by
  cases hliteral : literal? atoms with
  | some cs =>
    refine ⟨if isPresent d path (String.ofList cs) then [below path (String.ofList cs)] else [],
      fun patterns => ?_⟩
    rw [expand, hliteral]
    change (if isPresent d path (String.ofList cs) then _ else []) = _
    split <;> simp
  | none =>
    let pattern := Pattern.named atoms
    refine ⟨((((d.entry? path).map (childrenOf path)).getD []).filter fun f =>
        f.1.fileName?.any pattern.accepts).map Prod.fst ++
      if pattern.startsWithPoint && d.isDirectory path then
        ([".", ".."].filter pattern.accepts).map fun name => path.join ⟨name⟩ else [],
      fun patterns => ?_⟩
    rw [expand, hliteral, List.flatMap_append, List.flatMap_map]

/-- The last two patterns lead on from a path to which the others lead, and from there every other
pattern at the end leads on, too. -/
theorem exists_of_mem_expand {d : Disk} {atoms : List Atom} {q : Path} :
    ∀ (front : List Pattern) {path : Path}, front.getLast? ≠ some .anyDirectories →
      q ∈ expand d (front ++ [.anyDirectories, .named atoms]) path →
      ∃ start, q ∈ expand d [.anyDirectories, .named atoms] start ∧
        ∀ other, expand d [.anyDirectories, .named other] start ⊆
          expand d (front ++ [.anyDirectories, .named other]) path
  | [], path, _, hq => ⟨path, hq, fun _ => List.Subset.refl _⟩
  | [.anyDirectories], _, hlast, _ => absurd rfl hlast
  | .anyDirectories :: next :: rest, path, hlast, hq => by
    rw [List.cons_append, List.cons_append, mem_expand_anyDirectories] at hq
    -- The wildcard leads to some entry, and from there the rest leads on.
    obtain ⟨e, he, x, hx, haccepts, hrest⟩ := hq
    have hlast' : rest.getLast? ≠ some .anyDirectories := by
      cases rest with
      | nil => exact nofun
      | cons first rest => rwa [List.getLast?_cons_cons, List.getLast?_cons_cons] at hlast
    obtain ⟨start, hstart, hall⟩ := exists_of_mem_expand rest hlast' hrest
    exact ⟨start, hstart, fun other q' hq' => mem_expand_anyDirectories.2
      ⟨e, he, x, hx, haccepts, hall other hq'⟩⟩
  | .named names :: rest, path, hlast, hq => by
    have hlast' : rest.getLast? ≠ some .anyDirectories := by
      cases rest with
      | nil => exact nofun
      | cons first rest => rwa [List.getLast?_cons_cons] at hlast
    obtain ⟨paths, hpaths⟩ := exists_expand_named d names path
    rw [List.cons_append, hpaths, List.mem_flatMap] at hq
    obtain ⟨path', hpath', hrest⟩ := hq
    obtain ⟨start, hstart, hall⟩ := exists_of_mem_expand rest hlast' hrest
    refine ⟨start, hstart, fun other q' hq' => ?_⟩
    rw [List.cons_append, hpaths, List.mem_flatMap]
    exact ⟨path', hpath', hall other hq'⟩

/-! ### Directories below -/

/-- The path is that of an entry of a directory, and all entries of the directory are listed. -/
def ListedWhole (d : Disk) (listed : List (Path × Entry)) (q : Path) (found : Entry) : Prop :=
  ∃ dir m entries name, Stands d dir m ∧ d.root.at? m = some (.directory entries) ∧
    (name, found) ∈ entries ∧ q = below dir name ∧
    ∀ other e, (other, e) ∈ entries → (below dir other, e) ∈ listed

theorem ListedWhole.mono {d : Disk} {listed listed' : List (Path × Entry)} {q : Path}
    {found : Entry} (h : ListedWhole d listed q found) (hsub : listed ⊆ listed') :
    ListedWhole d listed' q found := by
  obtain ⟨dir, m, entries, name, hdir, hm, hfound, hq, hall⟩ := h
  exact ⟨dir, m, entries, name, hdir, hm, hfound, hq, fun other e he => hsub (hall other e he)⟩

/-- Named entries are listed with all below them. -/
theorem subset_allOf {dir : Path} {entries : List (String × Entry)} {name : String} {e : Entry}
    (he : (name, e) ∈ entries) :
    (below dir name, e) ∈ allOf dir entries ∧ allBelow (below dir name) e ⊆ allOf dir entries := by
  induction entries with
  | nil => exact absurd he List.not_mem_nil
  | cons entry entries ih =>
    obtain ⟨first, e'⟩ := entry
    rw [allOf]
    obtain heq | he := List.mem_cons.1 he
    · obtain ⟨rfl, rfl⟩ := Prod.mk.inj heq
      exact ⟨List.mem_cons_self, fun x hx => List.mem_cons_of_mem _ (List.mem_append_left _ hx)⟩
    · obtain ⟨hmem, hsub⟩ := ih he
      exact ⟨List.mem_cons_of_mem _ (List.mem_append_right _ hmem),
        fun x hx => List.mem_cons_of_mem _ (List.mem_append_right _ (hsub hx))⟩

mutual

/-- What is below a directory of a file tree is listed with all of its own directory. -/
theorem listedWhole_allBelow {d : Disk} (htree : d.IsFileTree) {q : Path} {found : Entry} :
    ∀ (e : Entry) {dir : Path} {m : List String}, d.root.at? m = some e →
      (e.isDirectory = true → Stands d dir m) → (q, found) ∈ allBelow dir e →
      ListedWhole d (allBelow dir e) q found
  | .file _, _, _, _, _, hmem => absurd hmem List.not_mem_nil
  | .directory entries, dir, m, hat, hdir, hmem => by
    obtain ⟨husable, hmem⟩ := mem_allBelow_directory.1 hmem
    exact (listedWhole_allOf htree entries (hdir rfl) hat (fun _ hx => hx) hmem).mono
      fun _ hx => mem_allBelow_directory.2 ⟨husable, hx⟩

/-- The same for some of the entries of a directory. -/
theorem listedWhole_allOf {d : Disk} (htree : d.IsFileTree) {q : Path} {found : Entry} :
    ∀ (part : List (String × Entry)) {entries : List (String × Entry)} {dir : Path}
      {m : List String}, Stands d dir m → d.root.at? m = some (.directory entries) →
      part ⊆ entries → (q, found) ∈ allOf dir part → ListedWhole d (allOf dir entries) q found
  | [], _, _, _, _, _, _, hmem => absurd hmem List.not_mem_nil
  | (name, e) :: part, entries, dir, m, hdir, hat, hsub, hmem => by
    have he : (name, e) ∈ entries := hsub List.mem_cons_self
    rw [allOf, List.mem_cons, List.mem_append] at hmem
    obtain heq | hmem | hmem := hmem
    · -- It is an entry of the directory itself.
      obtain ⟨rfl, rfl⟩ := Prod.mk.inj heq
      exact ⟨dir, m, entries, name, hdir, hat, he, rfl, fun _ _ he' => (subset_allOf he').1⟩
    · have hfound := foundAt_below hdir (Disk.node?_eq_directory_iff.2 ⟨_, hat⟩)
        (htree.isName hat he) (htree.at?_child hat he)
      exact (listedWhole_allBelow htree e hfound.at?_eq hfound.stands hmem).mono (subset_allOf he).2
    · exact listedWhole_allOf htree part hdir hat
        (fun _ hx => hsub (List.mem_cons_of_mem _ hx)) hmem

end

/-- What the last two patterns find. -/
theorem mem_expand_last {d : Disk} {atoms : List Atom} {path q : Path} :
    q ∈ expand d [.anyDirectories, .named atoms] path ↔ ∃ e found, d.entry? path = some e ∧
      (q, found) ∈ allBelow path e ∧
      q.fileName?.any (Pattern.named atoms).accepts = true := by
  rw [mem_expand_anyDirectories]
  constructor
  · rintro ⟨e, he, ⟨q', found⟩, hmem, haccepts, hq⟩
    rw [expand, List.mem_singleton] at hq
    obtain rfl := hq
    exact ⟨e, found, he, hmem, haccepts⟩
  · rintro ⟨e, found, he, hmem, haccepts⟩
    exact ⟨e, he, (q, found), hmem, haccepts, by rw [expand]; exact List.mem_singleton_self q⟩

/-- Names below one path have the same pieces in front. -/
theorem exists_pieces_below (dir : Path) :
    ∃ front, ∀ name, '/' ∉ name.toList → (below dir name).pieces = front ++ [name] := by
  by_cases hsame : dir.same ⟨"."⟩ = true
  · exact ⟨[], fun name hname => by rw [below, if_pos hsame, pieces_name hname]; rfl⟩
  · by_cases hempty : dir.isEmpty = true
    · obtain rfl : dir = ⟨""⟩ := congrArg Path.mk (String.isEmpty_iff.1 hempty)
      exact ⟨[], fun name hname => by
        rw [below, if_neg hsame, empty_join hname, pieces_name hname]; rfl⟩
    · obtain ⟨front, -, hjoin⟩ := exists_pieces_join (Bool.eq_false_iff.2 hempty)
      exact ⟨front, fun name hname => by rw [below, if_neg hsame, hjoin name hname]⟩

/-- What the last two patterns find is listed with all of its own directory. -/
theorem exists_listedWhole {d : Disk} (htree : d.IsFileTree) {atoms : List Atom} {start q : Path}
    (hq : q ∈ expand d [.anyDirectories, .named atoms] start) :
    ∃ e found, d.entry? start = some e ∧ ListedWhole d (allBelow start e) q found := by
  obtain ⟨e, found, he, hmem, -⟩ := mem_expand_last.1 hq
  obtain ⟨m, hm, hat⟩ := Option.bind_eq_some_iff.1 he
  have hstands : e.isDirectory = true → Stands d start m := fun hdirectory => by
    obtain ⟨entries, rfl⟩ := Entry.isDirectory_iff.1 hdirectory
    exact stands_of_locate? hm (Disk.node?_eq_directory_iff.2 ⟨entries, hat⟩)
  exact ⟨e, found, he, listedWhole_allBelow htree e hat hstands hmem⟩

/-- What else is in the directory of a path is listed, too, with the parent of the path. -/
theorem ListedWhole.exists_beside {d : Disk} (htree : d.IsFileTree)
    {listed : List (Path × Entry)} {q : Path} {found : Entry} (h : ListedWhole d listed q found)
    {location : List String} {name other : String}
    (hlocate : d.locate? q = some (location ++ [name]))
    (hexists : d.node? (location ++ [other]) ≠ none) (hother : IsName other) :
    ∃ q' e', (q', e') ∈ listed ∧ q'.parent? = q.parent? ∧ ∃ front, q'.EndsIn front other := by
  obtain ⟨dir, m, entries, own, hdir, hm, hown, rfl, hlisted⟩ := h
  have hisName := htree.isName hm hown
  -- The directory is the one in which the path was located.
  have hfound := foundAt_below hdir (Disk.node?_eq_directory_iff.2 ⟨_, hm⟩) hisName
    (htree.at?_child hm hown)
  have hplace := hfound.locate?_eq (Disk.locate?_eq_some_iff.1 hlocate).2.1
  rw [hlocate, Option.some.injEq] at hplace
  obtain ⟨rfl, -⟩ := List.append_inj' hplace rfl
  -- So it has the other name.
  have hentry : ∃ e', (other, e') ∈ entries := by
    rw [Disk.node?, Entry.node?, Entry.at?_append, hm, Option.bind_some, Entry.at?_cons] at hexists
    cases hlookup : entries.lookup other with
    | none => simp [hlookup] at hexists
    | some e' =>
      obtain ⟨before, after, rfl, -⟩ := List.lookup_eq_some_iff.1 hlookup
      exact ⟨e', by simp⟩
  obtain ⟨e', he'⟩ := hentry
  obtain ⟨base, hbase⟩ := exists_pieces_below dir
  exact ⟨below dir other, e', hlisted other e' he',
    parent?_congr (hbase _ hother.noSlash) (hbase _ hisName.noSlash) hother hisName,
    endsIn_below dir hother⟩

/-- If a search finds a path, then it finds all token files of the directory in which the path is,
each with the extension that it has and with the parent of the path. -/
theorem exists_sibling {d : Disk} (htree : d.IsFileTree) {source q : Path}
    {extension extension' stem : String} (hextension : extension ∈ tokenExtensions)
    (hextension' : extension' ∈ tokenExtensions)
    (hq : q ∈ find d ⟨source.text ++ "/**/*." ++ extension⟩) {location : List String}
    {name : String} (hlocate : d.locate? q = some (location ++ [name]))
    (hexists : d.node? (location ++ [stem ++ "." ++ extension']) ≠ none)
    (hname : IsName (stem ++ "." ++ extension')) :
    ∃ q' ∈ find d ⟨source.text ++ "/**/*." ++ extension'⟩, q'.parent? = q.parent? ∧
      ∃ front, q'.EndsIn front (stem ++ "." ++ extension') := by
  rw [find_tokenPattern_eq source hextension] at hq
  rw [find_tokenPattern_eq source hextension']
  cases hread : (namesOf source).mapM readPiece with
  | none =>
    rw [hread] at hq
    exact absurd hq List.not_mem_nil
  | some patterns =>
    obtain ⟨front, hlast, hfront⟩ := exists_mergeWildcards patterns
    rw [hread, Option.map_some, Option.getD_some, ending, hfront] at hq
    rw [Option.map_some, Option.getD_some, ending, hfront]
    -- Both searches come by the path from which the last wildcard leads on.
    obtain ⟨start, hstart, hall⟩ := exists_of_mem_expand front hlast hq
    obtain ⟨e, found, he, hlisted⟩ := exists_listedWhole htree hstart
    obtain ⟨q', e', hmem, hparent, front', hends⟩ :=
      hlisted.exists_beside htree hlocate hexists hname
    refine ⟨q', hall _ (mem_expand_last.2 ⟨e, e', he, hmem, ?_⟩), hparent, front', hends⟩
    rw [hends.fileName?_eq, Option.any_some]
    exact accepts_ending stem extension'

end Glob

end GridStyle
