import GridStyle.Proofs.Files.Finding

/-!
# Searching Again

A directory whose name has no character of the pattern language (`Glob.IsPlain`) is looked up and
not matched. So a search for token files leads to it or nowhere (`Glob.follow`), and after the disk
has grown it leads there again. If nothing was put under the name of a token file, the second search
finds what the first one found, in the same order (`findTokenFiles_grown`).
-/

namespace GridStyle

open GridStyle.Path

/-- Whether a path is that of a token file is told by the name at its end. -/
theorem isTokenFile_of_endsIn {p : Path} {front : List String} {name : String}
    (h : p.EndsIn front name) : isTokenFile p = isTokenFile ⟨name⟩ := by
  rw [isTokenFile, isTokenFile, extension?, extension?, h.fileName?_eq,
    (endsIn_name h.1).fileName?_eq]

namespace Glob

/-! ### Names without special characters -/

/-- The character stands for itself in a pattern. -/
def IsPlain (c : Char) : Prop := c ≠ '*' ∧ c ≠ '?' ∧ c ≠ '['

instance (c : Char) : Decidable (IsPlain c) :=
  inferInstanceAs (Decidable (c ≠ '*' ∧ c ≠ '?' ∧ c ≠ '['))

/-- The pattern of a name that stands for itself. -/
def word (name : String) : Pattern := .named (name.toList.map .char)

theorem readAtoms_plain {cs : List Char} {fuel : Nat} (hfuel : cs.length ≤ fuel)
    (h : ∀ c ∈ cs, IsPlain c) : readAtoms fuel cs = some (cs.map .char) := by
  induction cs generalizing fuel with
  | nil => cases fuel <;> rfl
  | cons c cs ih =>
    rw [List.forall_mem_cons] at h
    obtain ⟨⟨hstar, hmark, hbracket⟩, hrest⟩ := h
    cases fuel with
    | zero => simp at hfuel
    | succ fuel =>
      rw [List.length_cons, Nat.add_le_add_iff_right] at hfuel
      rw [readAtoms, ih hfuel hrest]
      · rfl
      all_goals simp_all

theorem literal?_map_char (cs : List Char) : literal? (cs.map .char) = some cs := by
  induction cs with
  | nil => rfl
  | cons c cs ih => rw [List.map_cons, literal?, ih]; rfl

theorem readPiece_plain {piece : String} (h : ∀ c ∈ piece.toList, IsPlain c) :
    readPiece piece = some (word piece) := by
  have hne : piece ≠ "**" := by
    rintro rfl
    exact absurd (h '*' (by simp)) (by decide)
  rw [readPiece, if_neg hne, readAtoms_plain (Nat.le_of_eq String.length_toList) h]
  rfl

theorem mapM_readPiece_plain {pieces : List String}
    (h : ∀ piece ∈ pieces, ∀ c ∈ piece.toList, IsPlain c) :
    pieces.mapM readPiece = some (pieces.map word) := by
  induction pieces with
  | nil => rfl
  | cons piece pieces ih =>
    rw [List.forall_mem_cons] at h
    rw [List.mapM_cons, readPiece_plain h.1, ih h.2]
    rfl

theorem mergeWildcards_append (names : List String) (patterns : List Pattern) :
    mergeWildcards (names.map word ++ patterns) = names.map word ++ mergeWildcards patterns := by
  induction names with
  | nil => rfl
  | cons name names ih =>
    rw [List.map_cons, List.cons_append, word, mergeWildcards, ih]
    · rfl
    · simp

/-! ### Where literal names lead -/

/-- Where names lead that are looked up one after the other. -/
def follow (d : Disk) : List String → Path → Option Path
  | [], path => some path
  | name :: rest, path =>
    if isPresent d path name then follow d rest (below path name) else none

theorem expand_word (d : Disk) (name : String) (patterns : List Pattern) (path : Path) :
    expand d (word name :: patterns) path =
      if isPresent d path name then expand d patterns (below path name) else [] := by
  rw [word, expand, literal?_map_char]
  simp only [String.ofList_toList]
  rfl

theorem expand_words (d : Disk) (names : List String) (patterns : List Pattern) (path : Path) :
    expand d (names.map word ++ patterns) path =
      ((follow d names path).map (expand d patterns)).getD [] := by
  induction names generalizing path with
  | nil => rfl
  | cons name names ih =>
    rw [List.map_cons, List.cons_append, expand_word, follow]
    split
    · exact ih _
    · rfl

section Grown

variable {made : List String → Entry → Prop} {d d' : Disk} (h : Disk.Grown made d d')
include h

theorem isPresent_grown {path : Path} {name : String} (hname : isPresent d path name = true) :
    isPresent d' path name = true := by
  rw [isPresent] at hname ⊢
  split at hname
  · next hpoint => rw [if_pos hpoint, h.isDirectory hname]
  · next hpoint => rw [if_neg hpoint, h.pathExists hname]

/-- Names that lead somewhere lead there after the disk has grown. -/
theorem follow_grown {names : List String} {path found : Path}
    (hfollow : follow d names path = some found) : follow d' names path = some found := by
  induction names generalizing path with
  | nil => exact hfollow
  | cons name names ih =>
    rw [follow] at hfollow ⊢
    split at hfollow
    · next hpresent => rw [if_pos (isPresent_grown h hpresent), ih hfollow]
    · exact absurd hfollow.symm (Option.some_ne_none _)

end Grown

/-! ### Token files below a directory -/

/-- The pattern for names with an extension. -/
def ending (extension : String) : Pattern :=
  .named (.anyText :: ("." ++ extension).toList.map .char)

theorem readPiece_ending {extension : String} (h : extension ∈ tokenExtensions) :
    readPiece ("*." ++ extension) = some (ending extension) := by
  simp only [tokenExtensions, List.mem_cons, List.not_mem_nil, or_false] at h
  obtain rfl | rfl := h <;> decide

theorem pieces_tokenPattern (source : Path) {extension : String} (h : '/' ∉ extension.toList) :
    (⟨source.text ++ "/**/*." ++ extension⟩ : Path).pieces =
      source.pieces ++ ["**", "*." ++ extension] := by
  have htext : source.text ++ "/**/*." ++ extension =
      source.text ++ "/" ++ ("**" ++ "/" ++ ("*." ++ extension)) := by
    apply String.toList_injective
    simp [String.toList_append]
  have hname : '/' ∉ ("*." ++ extension).toList := by
    rw [String.toList_append, List.mem_append, not_or]
    exact ⟨by decide, h⟩
  rw [htext, pieces_slash, pieces_slash, pieces_name hname]
  rfl

/-- The pieces of a directory that are looked up behind the root or the working directory. -/
def namesOf (source : Path) : List String :=
  if source.pieces.head? = some "" then source.pieces.drop 1 else source.pieces

/-- Where looking up the pieces of a directory starts. -/
def baseOf (source : Path) : Path := if source.pieces.head? = some "" then ⟨"/"⟩ else ⟨"."⟩

theorem isAbsolute_tokenPattern (source : Path) {extension : String} (h : '/' ∉ extension.toList) :
    (⟨source.text ++ "/**/*." ++ extension⟩ : Path).isAbsolute =
      decide (source.pieces.head? = some "") := by
  rw [Bool.eq_iff_iff, isAbsolute_iff, pieces_tokenPattern source h, decide_eq_true_eq]
  cases source.pieces with
  | nil => simp
  | cons first rest =>
    rw [List.head?_cons, Option.some.injEq]
    constructor
    · rintro ⟨_, -, heq⟩
      exact (List.cons.inj heq).1
    · rintro rfl
      exact ⟨rest ++ ["**", "*." ++ extension], by simp, rfl⟩

theorem getLast?_tokenPattern (front : List String) (extension : String) :
    (front ++ ["**", "*." ++ extension]).getLast? ≠ some "" := by
  rw [List.getLast?_append]
  simp

theorem piecesOf_tokenPattern (source : Path) {extension : String} (h : '/' ∉ extension.toList) :
    piecesOf ⟨source.text ++ "/**/*." ++ extension⟩ =
      namesOf source ++ ["**", "*." ++ extension] := by
  have hdrop : (source.pieces ++ ["**", "*." ++ extension]).drop 1 =
      source.pieces.drop 1 ++ ["**", "*." ++ extension] := by
    cases hpieces : source.pieces with
    | nil => exact absurd hpieces source.pieces_ne_nil
    | cons => rfl
  simp only [piecesOf, isAbsolute_tokenPattern source h, pieces_tokenPattern source h, namesOf,
    decide_eq_true_eq]
  split
  · rw [hdrop, if_neg (getLast?_tokenPattern _ _)]
  · rw [if_neg (getLast?_tokenPattern _ _)]

/-- A search goes where the pieces of the directory lead, and then through everything below. -/
theorem find_tokenPattern_eq (source : Path) {extension : String}
    (hextension : extension ∈ tokenExtensions) (d : Disk) :
    find d ⟨source.text ++ "/**/*." ++ extension⟩ =
      (((namesOf source).mapM readPiece).map fun patterns =>
        expand d (mergeWildcards (patterns ++ [.anyDirectories, ending extension]))
          (baseOf source)).getD [] := by
  have hslash : '/' ∉ extension.toList := by
    simp only [tokenExtensions, List.mem_cons, List.not_mem_nil, or_false] at hextension
    obtain rfl | rfl := hextension <;> decide
  -- The pattern ends in an extension, not in a slash.
  have hend : (⟨source.text ++ "/**/*." ++ extension⟩ : Path).endsWithSlash = false := by
    rw [Bool.eq_false_iff]
    intro hend
    obtain ⟨front, -, hpieces⟩ := pieces_of_endsWithSlash hend
    rw [pieces_tokenPattern source hslash] at hpieces
    exact getLast?_tokenPattern _ _ (hpieces ▸ List.getLast?_concat)
  have hread : (piecesOf ⟨source.text ++ "/**/*." ++ extension⟩).mapM readPiece =
      ((namesOf source).mapM readPiece).map (· ++ [.anyDirectories, ending extension]) := by
    rw [piecesOf_tokenPattern source hslash, List.mapM_append]
    simp [readPiece_ending hextension, show readPiece "**" = some .anyDirectories by decide]
    cases (namesOf source).mapM readPiece <;> rfl
  rw [find, hread]
  cases (namesOf source).mapM readPiece with
  | none => rfl
  | some patterns =>
    simp only [Option.map_some, isAbsolute_tokenPattern source hslash, decide_eq_true_eq, hend,
      baseOf]
    rfl

/-- A search in a plain directory looks its pieces up. -/
theorem find_tokenPattern {source : Path} (hplain : ∀ c ∈ source.text.toList, IsPlain c)
    {extension : String} (hextension : extension ∈ tokenExtensions) (d : Disk) :
    find d ⟨source.text ++ "/**/*." ++ extension⟩ =
      expand d ((namesOf source).map word ++ [.anyDirectories, ending extension])
        (baseOf source) := by
  have hpieces : ∀ piece ∈ namesOf source, ∀ c ∈ piece.toList, IsPlain c := by
    intro piece hmem c hc
    refine hplain c (of_mem_pieces ?_ c hc).1
    rw [namesOf] at hmem
    split at hmem
    · exact List.mem_of_mem_drop hmem
    · exact hmem
  rw [find_tokenPattern_eq source hextension, mapM_readPiece_plain hpieces, Option.map_some,
    mergeWildcards_append]
  rfl

/-! ### Entries under other names -/

theorem isTokenFile_below (dir : Path) {name : String} (hname : IsName name) :
    isTokenFile (below dir name) = isTokenFile ⟨name⟩ := by
  obtain ⟨front, hends⟩ := endsIn_below dir hname
  exact isTokenFile_of_endsIn hends

/-- The paths below a directory that are named like token files. -/
def tokensBelow (dir : Path) (e : Entry) : List Path :=
  ((allBelow dir e).map Prod.fst).filter isTokenFile

/-- The same for named entries. -/
def tokensOf (dir : Path) (entries : List (String × Entry)) : List Path :=
  ((allOf dir entries).map Prod.fst).filter isTokenFile

theorem tokensBelow_directory (dir : Path) (entries : List (String × Entry)) :
    tokensBelow dir (.directory entries) =
      if dir.isUsable then tokensOf dir entries else [] := by
  rw [tokensBelow, allBelow, tokensOf]
  split <;> rfl

theorem tokensBelow_eq_nil {e : Entry} (h : e.entries = []) (dir : Path) :
    tokensBelow dir e = [] := by
  cases e with
  | file => rw [tokensBelow, allBelow]; rfl
  | directory entries =>
    rw [tokensBelow_directory, tokensOf, show entries = [] from h, allOf]
    exact ite_self _

theorem tokensOf_cons (dir : Path) (name : String) (e : Entry) (entries : List (String × Entry)) :
    tokensOf dir ((name, e) :: entries) =
      [below dir name].filter isTokenFile ++ tokensBelow (below dir name) e ++
        tokensOf dir entries := by
  rw [tokensOf, allOf, List.map_cons, List.map_append, List.filter_cons, List.filter_append,
    tokensBelow, tokensOf, List.filter_singleton]
  cases isTokenFile (below dir name) <;> simp

/-- Below both entries the same paths are named like token files. -/
def SameTokens (e e' : Entry) : Prop := ∀ dir, tokensBelow dir e' = tokensBelow dir e

/-- Every location stays there with its token files below. -/
def KeepsTokens (e e' : Entry) : Prop :=
  ∀ m c, e.at? m = some c → ∃ c', e'.at? m = some c' ∧ SameTokens c c'

theorem KeepsTokens.same {e e' : Entry} (h : KeepsTokens e e') : SameTokens e e' := by
  obtain ⟨c', hat, hsame⟩ := h [] e rfl
  rw [Entry.at?, Option.some.injEq] at hat
  exact hat ▸ hsame

section Place

variable {name : String} {new : Entry} {entries : List (String × Entry)}

/-- An entry takes the place of one with the same token files, or is new and brings none. -/
theorem sameTokens_place (hold : ∀ old, entries.lookup name = some old → SameTokens old new)
    (hnew : entries.lookup name = none → ∀ dir, tokensOf dir [(name, new)] = []) :
    SameTokens (.directory entries) (.directory (Entry.place name new entries)) := by
  intro dir
  rw [tokensBelow_directory, tokensBelow_directory]
  congr 1
  induction entries with
  | nil =>
    rw [Entry.place, hnew rfl, tokensOf, allOf]
    rfl
  | cons entry entries ih =>
    obtain ⟨first, e⟩ := entry
    rw [Entry.lookup_cons_entry] at hold hnew
    rw [Entry.place]
    split
    · next hfirst =>
      rw [if_pos hfirst.symm] at hold
      rw [tokensOf_cons, tokensOf_cons, hfirst, hold e rfl]
    · next hfirst =>
      rw [if_neg fun heq => hfirst heq.symm] at hold hnew
      rw [tokensOf_cons, tokensOf_cons, ih hold hnew]

/-- An entry takes the place of one whose locations it keeps, or is new and brings no token files.
-/
theorem keepsTokens_place (hold : ∀ old, entries.lookup name = some old → KeepsTokens old new)
    (hnew : entries.lookup name = none → ∀ dir, tokensOf dir [(name, new)] = []) :
    KeepsTokens (.directory entries) (.directory (Entry.place name new entries)) := by
  rintro (_ | ⟨other, rest⟩) c hat
  · -- The directory itself.
    rw [Entry.at?, Option.some.injEq] at hat
    subst hat
    exact ⟨_, rfl, sameTokens_place (fun old hlookup => (hold old hlookup).same) hnew⟩
  · rw [Entry.at?_cons, Option.bind_eq_some_iff] at hat
    obtain ⟨child, hlookup, hrest⟩ := hat
    rw [Entry.at?_cons, Entry.lookup_place]
    split
    · next hother => exact hold child (hother ▸ hlookup) rest c hrest
    · rw [hlookup]
      exact ⟨c, hrest, fun _ => rfl⟩

/-- An entry that holds nothing, under a name of no token file, brings none. -/
theorem tokensOf_unlisted (hnew : new.entries = []) (hname : IsName name)
    (htoken : isTokenFile ⟨name⟩ = false) (dir : Path) : tokensOf dir [(name, new)] = [] := by
  rw [tokensOf_cons, tokensBelow_eq_nil hnew, List.filter_singleton, isTokenFile_below dir hname,
    htoken, tokensOf, allOf]
  rfl

end Place

/-- An entry that holds nothing takes the place of one that holds nothing. -/
theorem keepsTokens_of_empty {old new : Entry} (hold : old.entries = []) (hnew : new.entries = []) :
    KeepsTokens old new := by
  rintro (_ | ⟨other, rest⟩) c hat
  · rw [Entry.at?, Option.some.injEq] at hat
    subst hat
    refine ⟨new, rfl, fun dir => ?_⟩
    rw [tokensBelow_eq_nil hnew, tokensBelow_eq_nil hold]
  · obtain ⟨entries, child, rfl, hchild, -⟩ := Entry.exists_child_of_at? hat
    rw [show entries = [] from hold] at hchild
    simp at hchild

/-- Putting an entry that holds nothing, under a name of no token file and where no directory was,
keeps every location with its token files. -/
theorem keepsTokens_put {new : Entry} {location : List String} {name : String}
    (hnew : new.entries = []) (hname : IsName name) (htoken : isTokenFile ⟨name⟩ = false)
    {e : Entry} (hdirectory : e.node? location = some .directory)
    (hfree : e.node? (location ++ [name]) ≠ some .directory) :
    KeepsTokens e (e.put new (location ++ [name])) := by
  induction location generalizing e with
  | nil =>
    obtain ⟨entries, rfl⟩ :=
      Entry.isDirectory_iff.1 (Entry.node_eq_directory_iff.1 (Option.some.inj hdirectory))
    rw [List.nil_append, Entry.node?_cons] at hfree
    rw [List.nil_append, Entry.put]
    -- What stood there was no directory, so it had nothing below it.
    refine keepsTokens_place (fun old hlookup => keepsTokens_of_empty ?_ hnew)
      fun _ => tokensOf_unlisted hnew hname htoken
    rw [hlookup] at hfree
    cases old with
    | file => rfl
    | directory => exact absurd rfl hfree
  | cons first location ih =>
    obtain ⟨entries, child, rfl, hchild, hbelow⟩ := Entry.exists_child_of_node? hdirectory
    rw [List.cons_append, Entry.node?_cons, hchild, Option.bind_some] at hfree
    rw [List.cons_append, Entry.put_cons hchild]
    refine keepsTokens_place (fun old hlookup => ?_) fun hnone => ?_
    · rw [hchild, Option.some.injEq] at hlookup
      exact hlookup ▸ ih hbelow hfree
    · exact absurd (hchild.symm.trans hnone) (Option.some_ne_none _)

/-- An entry of another name than that of a token file. -/
def Unlisted (location : List String) (_ : Entry) : Prop :=
  ∃ name, location.getLast? = some name ∧ IsName name ∧ isTokenFile ⟨name⟩ = false

/-- A disk that grows under other names keeps its token files. -/
theorem keepsTokens_of_grown {d d' : Disk} (h : Disk.Grown Unlisted d d') :
    KeepsTokens d.root d'.root := by
  induction h with
  | refl => exact fun m c hat => ⟨c, hat, fun _ => rfl⟩
  | @put d' location name new _ hfits hmade ih =>
    intro m c hat
    obtain ⟨c', hat', hsame⟩ := ih m c hat
    obtain ⟨name', hlast, hname, htoken⟩ := hmade
    rw [List.getLast?_concat, Option.some.injEq] at hlast
    subst hlast
    have hfree : d'.node? (location ++ [name]) ≠ some .directory := fun hold =>
      (hfits.replaces (hold ▸ Option.some_ne_none _)).1 hold
    obtain ⟨c'', hat'', hsame'⟩ :=
      keepsTokens_put hfits.empty hname htoken hfits.directory hfree m c' hat'
    exact ⟨c'', hat'', fun dir => (hsame' dir).trans (hsame dir)⟩

/-! ### The second search -/

/-- Of what a search finds below a directory, the token files. -/
theorem filter_expand_tokens {d : Disk} {path : Path} {e : Entry} (he : d.entry? path = some e)
    (last : Pattern) :
    (expand d [.anyDirectories, last] path).filter isTokenFile =
      (tokensBelow path e).filter fun q => q.fileName?.any last.accepts := by
  have hfound : ∀ found : List (Path × Entry),
      (found.flatMap fun x => if x.1.fileName?.any last.accepts then [x.1] else []) =
        (found.map Prod.fst).filter fun q => q.fileName?.any last.accepts := by
    intro found
    induction found with
    | nil => rfl
    | cons x found ih =>
      rw [List.flatMap_cons, ih, List.map_cons, List.filter_cons]
      split <;> rfl
  simp only [expand, he]
  rw [hfound, tokensBelow, List.filter_filter, List.filter_filter]
  simp only [Bool.and_comm]

/-- If nothing is found in the first search there may be something later; else the second search
finds the same token files. -/
theorem find_grown {d d' : Disk} (h : Disk.Grown Unlisted d d') {source : Path}
    (hplain : ∀ c ∈ source.text.toList, IsPlain c) :
    (∀ extension ∈ tokenExtensions, find d ⟨source.text ++ "/**/*." ++ extension⟩ = []) ∨
      ∀ extension ∈ tokenExtensions,
        (find d' ⟨source.text ++ "/**/*." ++ extension⟩).filter isTokenFile =
          (find d ⟨source.text ++ "/**/*." ++ extension⟩).filter isTokenFile := by
  cases hfollow : follow d (namesOf source) (baseOf source) with
  | none =>
    -- The directory is not there, but may be made.
    left
    intro extension hextension
    rw [find_tokenPattern hplain hextension, expand_words, hfollow]
    rfl
  | some path =>
    cases he : d.entry? path with
    | none =>
      left
      intro extension hextension
      rw [find_tokenPattern hplain hextension, expand_words, hfollow]
      simp [expand, he]
    | some e =>
      -- The same entry is found in the second search, with the same token files below.
      right
      intro extension hextension
      obtain ⟨m, hm, hat⟩ := Option.bind_eq_some_iff.1 he
      obtain ⟨e', hat', hsame⟩ := keepsTokens_of_grown h m e hat
      have he' : d'.entry? path = some e' := Option.bind_eq_some_iff.2 ⟨m, h.locate? hm, hat'⟩
      rw [find_tokenPattern hplain hextension, find_tokenPattern hplain hextension, expand_words,
        expand_words, hfollow, follow_grown h hfollow, Option.map_some, Option.map_some,
        Option.getD_some, Option.getD_some, filter_expand_tokens he,
        filter_expand_tokens he', hsame]

end Glob

/-- Token files are found in a plain directory again after the disk has grown under other names, if
some were found before. -/
theorem findTokenFiles_grown {d d' : Disk} (h : Disk.Grown Glob.Unlisted d d') {source : Path}
    (hplain : ∀ c ∈ source.text.toList, Glob.IsPlain c) :
    findTokenFiles d source = [] ∨ findTokenFiles d' source = findTokenFiles d source := by
  refine (Glob.find_grown h hplain).imp (fun hnone => ?_) (fun hagain => ?_)
  · have hfound : (tokenExtensions.flatMap fun extension =>
        Glob.find d ⟨source.text ++ "/**/*." ++ extension⟩) = [] := List.flatMap_eq_nil_iff.2 hnone
    rw [findTokenFiles, hfound, List.filter_nil, List.mergeSort_nil]
  · rw [findTokenFiles, findTokenFiles, List.filter_flatMap, List.filter_flatMap,
      List.flatMap_congr hagain]

end GridStyle
