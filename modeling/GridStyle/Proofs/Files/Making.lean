import GridStyle.Proofs.Files.Growth
import GridStyle.Proofs.Files.Pieces

/-!
# Making Directories

What a path leads to is found on every disk that the first one grows into (`Disk.Grown.locate?`),
and so is the text of a file that is not written (`Disk.Grown.read_eq`).

Making the directories of a path either makes the path lead to one, or it comes to a name under
which no directory can be made (`Disk.exists_making`). Then it does so on every larger disk, too
(`Disk.Bars.grown`). What is said of the name can depend on whether a directory was made before it,
but not for a path without a double point: a new directory holds nothing that could be in the way.
-/

namespace GridStyle

open GridStyle.Path

namespace Disk

/-! ### Looking up -/

theorem locate?_eq_some_iff {d : Disk} {p : Path} {m : List String} :
    d.locate? p = some m ↔
      p.isEmpty = false ∧ p.isUsable = true ∧ d.walk (d.start p) p.pieces = some m := by
  rw [locate?, locate]
  cases p.isEmpty <;> cases p.isUsable <;> simp [walk, Except.toOption]

/-- A path that the disk takes is walked along. -/
theorem locate?_eq_walk {d : Disk} {p : Path} (hempty : p.isEmpty = false)
    (husable : p.isUsable = true) : d.locate? p = d.walk (d.start p) p.pieces := by
  rw [locate?, locate, hempty, husable]
  rfl

theorem pathExists_iff {d : Disk} {p : Path} :
    d.pathExists p = true ↔ ∃ m, d.locate? p = some m := by
  rw [pathExists, entry?, Option.isSome_iff_exists]
  constructor
  · rintro ⟨e, h⟩
    obtain ⟨m, hm, -⟩ := Option.bind_eq_some_iff.1 h
    exact ⟨m, hm⟩
  · rintro ⟨m, hm⟩
    have hexists := (walk_eq_some (locate?_eq_some_iff.1 hm).2.2).2
    rw [node?, Entry.node?, ne_eq, Option.map_eq_none_iff, ← ne_eq,
      Option.ne_none_iff_exists'] at hexists
    rw [hm]
    exact hexists

theorem isDirectory_iff {d : Disk} {p : Path} :
    d.isDirectory p = true ↔ ∃ m, d.locate? p = some m ∧ d.node? m = some .directory := by
  simp only [isDirectory, entry?, Option.any_eq_true, Option.bind_eq_some_iff]
  constructor
  · rintro ⟨e, ⟨m, hm, hat⟩, hdirectory⟩
    refine ⟨m, hm, ?_⟩
    rw [node?, Entry.node?, hat, Option.map_some, Entry.node_eq_directory_iff.2 hdirectory]
  · rintro ⟨m, hm, hnode⟩
    obtain ⟨e, hat, hnode⟩ := Option.map_eq_some_iff.1 hnode
    exact ⟨e, ⟨m, hm, hat⟩, Entry.node_eq_directory_iff.1 hnode⟩

theorem locate_eq_ok_iff {d : Disk} {p : Path} {m : List String} :
    d.locate p = .ok m ↔ d.locate? p = some m := by
  rw [locate?]
  cases d.locate p <;> simp [Except.toOption]

/-- Reading what a location shows. -/
def readNode : Option Entry.Node → Except DiskError String
  | some (.file (some text)) => .ok text
  | some (.file none) => .error .notText
  | some .directory => .error .isDirectory
  | none => .error .missing

theorem read_eq (d : Disk) (p : Path) :
    d.read p = (d.locate p).bind fun m => readNode (d.node? m) := by
  rw [read]
  refine congrArg (Except.bind (d.locate p)) (funext fun m => ?_)
  rw [node?, Entry.node?]
  cases d.root.at? m with
  | none => rfl
  | some e =>
    cases e with
    | file text => cases text <;> rfl
    | directory => rfl

theorem read?_eq (d : Disk) (p : Path) :
    d.read? p = (d.locate? p).bind fun m => (d.node? m).bind Entry.Node.text? := by
  rw [read?, read_eq, locate?]
  cases d.locate p with
  | error e => rfl
  | ok m =>
    change (readNode (d.node? m)).toOption = (d.node? m).bind Entry.Node.text?
    cases d.node? m with
    | none => rfl
    | some node =>
      cases node with
      | directory => rfl
      | file text => cases text <;> rfl

theorem read_eq_ok_iff {d : Disk} {p : Path} {text : String} :
    d.read p = .ok text ↔ d.read? p = some text := by
  rw [read?]
  cases d.read p <;> simp [Except.toOption]

/-- No disk looks at a path that it does not take. -/
theorem locate_of_not_usable (d : Disk) {p : Path} (h : ¬ p.isUsable = true) :
    d.locate p = .error (if p.isEmpty then .missing else p.refusal) := by
  rw [locate, if_neg h]
  split <;> rfl

theorem Grown.locate? {made : List String → Entry → Prop} {d d' : Disk} (h : Grown made d d')
    {p : Path} {m : List String} (hm : d.locate? p = some m) : d'.locate? p = some m := by
  rw [locate?_eq_some_iff] at hm ⊢
  rw [h.start]
  exact ⟨hm.1, hm.2.1, h.walk hm.2.2⟩

theorem Grown.pathExists {made : List String → Entry → Prop} {d d' : Disk} (h : Grown made d d')
    {p : Path} (hp : d.pathExists p = true) : d'.pathExists p = true := by
  obtain ⟨m, hm⟩ := pathExists_iff.1 hp
  exact pathExists_iff.2 ⟨m, h.locate? hm⟩

theorem Grown.isDirectory {made : List String → Entry → Prop} {d d' : Disk} (h : Grown made d d')
    {p : Path} (hp : d.isDirectory p = true) : d'.isDirectory p = true := by
  obtain ⟨m, hm, hnode⟩ := isDirectory_iff.1 hp
  exact isDirectory_iff.2 ⟨m, h.locate? hm, h.directory hnode⟩

/-- What is read under a path stays the same if no file is made where it leads. -/
theorem Grown.read_eq {made : List String → Entry → Prop} {d d' : Disk} (h : Grown made d d')
    {p : Path} {m : List String} (hm : d.locate? p = some m)
    (hmade : ∀ new, made m new → new.isDirectory = true) : d'.read p = d.read p := by
  obtain ⟨node, hnode⟩ := Option.ne_none_iff_exists'.1
    (walk_eq_some (locate?_eq_some_iff.1 hm).2.2).2
  rw [Disk.read_eq, Disk.read_eq, locate_eq_ok_iff.2 hm, locate_eq_ok_iff.2 (h.locate? hm)]
  change readNode (d'.node? m) = readNode (d.node? m)
  rw [hnode, h.kept hnode hmade]

theorem start_eq {d : Disk} {p q : Path} (h : p.isAbsolute = q.isAbsolute) :
    d.start p = d.start q := by
  rw [start, start, h]

/-- Pieces that say nothing lead from a directory to itself. -/
theorem walk_idle {d : Disk} {m idle : List String} (hm : d.node? m = some .directory)
    (hidle : AllIdle idle) : d.walk m idle = some m := by
  induction idle with
  | nil => exact walk_nil (hm ▸ Option.some_ne_none _)
  | cons piece idle ih =>
    rw [AllIdle, List.forall_mem_cons] at hidle
    rw [walk_cons hm, resolve, if_pos hidle.1]
    exact ih hidle.2

theorem resolve_idle {m idle : List String} (hidle : AllIdle idle) : resolve m idle = m := by
  induction idle with
  | nil => rfl
  | cons piece idle ih =>
    rw [AllIdle, List.forall_mem_cons] at hidle
    rw [resolve, if_pos hidle.1]
    exact ih hidle.2

/-- A directory is found along all pieces that say the same. -/
theorem walk_sameWay {d : Disk} {location ps qs m : List String} (h : SameWay ps qs)
    (hwalk : d.walk location ps = some m) (hm : d.node? m = some .directory) :
    d.walk location qs = some m := by
  obtain ⟨base, idle, idle', hidle, hidle', rfl, rfl⟩ := h
  rw [walk_append, Option.bind_eq_some_iff] at hwalk ⊢
  obtain ⟨m', hbase, hrest⟩ := hwalk
  obtain ⟨rfl, -⟩ := walk_eq_some hrest
  rw [resolve_idle hidle] at hm ⊢
  exact ⟨m', hbase, walk_idle hm hidle'⟩

/-! ### Making directories -/

/-- A new directory under one of some names. -/
def DirectoryIn (pieces : List String) (location : List String) (new : Entry) : Prop :=
  new.isDirectory = true ∧
    ∃ piece ∈ pieces, isIdle piece = false ∧ piece ≠ ".." ∧ location.getLast? = some piece

/-- A piece that leads to a directory is passed. -/
theorem makeAlong_cons_directory {d : Disk} {location : List String} {piece : String}
    (h : d.node? (resolve location [piece]) = some .directory) (made : Bool) (rest : List String) :
    d.makeAlong made location (piece :: rest) =
      d.makeAlong made (resolve location [piece]) rest := by
  rw [makeAlong]
  simp only [resolve] at h ⊢
  split
  · rfl
  · split
    · rfl
    · next hidle hup =>
      rw [if_neg hidle, if_neg hup, ← isDirectoryAt_iff] at h
      rw [if_pos h]

section Name

variable {d d' : Disk} {location : List String} {piece : String} (hidle : isIdle piece = false)
  (hup : piece ≠ "..")
include hidle hup

/-- Something else than a directory is in the way. -/
theorem makeAlong_cons_file (hthere : d.node? (location ++ [piece]) ≠ none)
    (hnot : d.node? (location ++ [piece]) ≠ some .directory) (made : Bool) (rest : List String) :
    d.makeAlong made location (piece :: rest) = (d, some (obstacle made rest)) := by
  have hdirectory : ¬ d.isDirectoryAt (location ++ [piece]) = true := fun hat =>
    hnot (isDirectoryAt_iff.1 hat)
  simp only [makeAlong, if_neg (Bool.eq_false_iff.1 hidle), if_neg hup, if_neg hdirectory,
    if_pos (existsAt_iff.2 hthere)]

/-- Nothing has the name. -/
theorem makeAlong_cons_free (hfree : d.node? (location ++ [piece]) = none) (made : Bool)
    (rest : List String) :
    d.makeAlong made location (piece :: rest) =
      if nameLimit < piece.utf8ByteSize then (d, some .tooLong)
      else
        (d.putAt (.directory []) (location ++ [piece])).makeAlong true (location ++ [piece])
          rest := by
  have hdirectory : ¬ d.isDirectoryAt (location ++ [piece]) = true := fun hat => by
    rw [isDirectoryAt_iff, hfree] at hat
    exact absurd hat.symm (Option.some_ne_none _)
  have hexists : ¬ d.existsAt (location ++ [piece]) = true := fun hat => existsAt_iff.1 hat hfree
  simp only [makeAlong, if_neg (Bool.eq_false_iff.1 hidle), if_neg hup, if_neg hdirectory,
    if_neg hexists]
  rfl

end Name

/-- The pieces come to a name under which no directory can be made. If none was made before, this is
what is said of it. -/
inductive Bars (d : Disk) : List String → List String → DiskError → Prop
  /-- Something else than a directory has the name. -/
  | file {location : List String} {piece : String} (h : d.node? location = some .directory)
      (hidle : isIdle piece = false) (hup : piece ≠ "..")
      (hthere : d.node? (location ++ [piece]) ≠ none)
      (hnot : d.node? (location ++ [piece]) ≠ some .directory) (rest : List String) :
      Bars d location (piece :: rest) (obstacle false rest)
  /-- Nothing has the name, which is too long. -/
  | long {location : List String} {piece : String} (h : d.node? location = some .directory)
      (hidle : isIdle piece = false) (hup : piece ≠ "..")
      (hfree : d.node? (location ++ [piece]) = none) (hlong : nameLimit < piece.utf8ByteSize)
      (rest : List String) : Bars d location (piece :: rest) .tooLong
  /-- The first piece leads to a directory. -/
  | next {location : List String} {piece : String} {rest : List String} {reason : DiskError}
      (h : d.node? location = some .directory)
      (hnext : d.node? (resolve location [piece]) = some .directory)
      (hrest : Bars d (resolve location [piece]) rest reason) :
      Bars d location (piece :: rest) reason

namespace Bars

variable {d d' : Disk} {location pieces : List String} {reason : DiskError}

theorem makeAlong (h : d.Bars location pieces reason) :
    d.makeAlong false location pieces = (d, some reason) := by
  induction h with
  | file _ hidle hup hthere hnot rest => exact makeAlong_cons_file hidle hup hthere hnot false rest
  | long _ hidle hup hfree hlong rest =>
    rw [makeAlong_cons_free hidle hup hfree, if_pos hlong]
  | next _ hnext _ ih => rw [makeAlong_cons_directory hnext, ih]

/-- What is in the way stays there, and a name that is too long is never given. -/
theorem grown (h : d.Bars location pieces reason) (hgrown : d.Extends d') :
    d'.Bars location pieces reason := by
  induction h with
  | file h hidle hup hthere hnot rest =>
    exact .file (hgrown.directory h) hidle hup (hgrown.ne_none hthere)
      (hgrown.ne_directory hthere hnot) rest
  | long h hidle hup hfree hlong rest =>
    refine .long (hgrown.directory h) hidle hup ?_ hlong rest
    by_contra hsome
    exact (hgrown.short hsome).elim (fun hne => hne hfree) (Nat.not_le.2 hlong)
  | next h hnext _ ih => exact .next (hgrown.directory h) (hgrown.directory hnext) ih

/-- The pieces do not lead to a directory, and if they lead to something else, they do so on every
disk from which this one has grown and where they are barred as well. -/
theorem of_walk (h : d.Bars location pieces reason) (hgrown : d.Extends d') {m : List String}
    (hwalk : d'.walk location pieces = some m) :
    d'.node? m ≠ some .directory ∧ d.walk location pieces = some m ∧ reason ≠ .tooLong := by
  induction h with
  | @file location piece h hidle hup hthere hnot rest =>
    have hstep : resolve location [piece] = location ++ [piece] := by
      rw [resolve_name hidle hup, resolve]
    have hnot' := hgrown.ne_directory hthere hnot
    rw [walk_cons (hgrown.directory h), hstep] at hwalk
    cases rest with
    | cons => exact absurd (directory_of_walk_cons hwalk) hnot'
    | nil =>
      obtain ⟨rfl, -⟩ := walk_eq_some hwalk
      rw [walk_cons h, hstep]
      exact ⟨hnot', walk_nil hthere, by decide⟩
  | @long location piece h hidle hup hfree hlong rest =>
    -- The name is given on no larger disk, so nothing is reached there.
    have hfree' : d'.node? (location ++ [piece]) = none := by
      by_contra hsome
      exact (hgrown.short hsome).elim (fun hne => hne hfree) (Nat.not_le.2 hlong)
    rw [walk_cons (hgrown.directory h), resolve_name hidle hup, resolve] at hwalk
    cases rest with
    | cons =>
      have hdirectory := directory_of_walk_cons hwalk
      exact absurd (hfree'.symm.trans hdirectory) (Option.some_ne_none _).symm
    | nil =>
      obtain ⟨rfl, hm⟩ := walk_eq_some hwalk
      exact absurd hfree' hm
  | next h hnext _ ih =>
    rw [walk_cons (hgrown.directory h)] at hwalk
    rw [walk_cons h]
    exact ih hwalk

end Bars

/-- A path without a double point is made either from directories that are there already, or in a
new one that holds nothing. -/
def Straight (d : Disk) (made : Bool) (location pieces : List String) : Prop :=
  ".." ∉ pieces ∧ (made = true → ∀ name, d.node? (location ++ [name]) = none)

/-- Making directories along pieces makes another disk of the first one, and there either the pieces
are the way to a directory or they are barred. Where the pieces are straight, what is said then is
said on every larger disk. -/
structure Making (d : Disk) (made : Bool) (location pieces : List String) (d' : Disk) : Prop where
  grown : Grown (DirectoryIn pieces) d d'
  outcome : (d.makeAlong made location pieces = (d', none) ∧
      ∃ m, d'.walk location pieces = some m ∧ d'.node? m = some .directory) ∨
    ∃ said reason, d.makeAlong made location pieces = (d', some said) ∧
      d'.Bars location pieces reason ∧ (d.Straight made location pieces →
        said = reason ∧ (reason = .tooLong ∨ made = false ∧ d' = d))

/-- Directories are made further along, once the first piece leads to one. -/
theorem Making.next {d d' : Disk} {made : Bool} {location pieces : List String} {piece : String}
    (h : d.node? location = some .directory)
    (hnext : d.node? (resolve location [piece]) = some .directory)
    (hrest : d.Making made (resolve location [piece]) pieces d') :
    d.Making made location (piece :: pieces) d' := by
  have hgrown : Grown (DirectoryIn (piece :: pieces)) d d' := hrest.grown.mono fun _ _ hmade =>
    ⟨hmade.1, hmade.2.imp fun _ hmem => ⟨List.mem_cons_of_mem _ hmem.1, hmem.2⟩⟩
  refine ⟨hgrown, ?_⟩
  rw [makeAlong_cons_directory hnext, walk_cons (hgrown.directory h)]
  refine hrest.outcome.imp_right ?_
  rintro ⟨said, reason, hmake, hbars, hsaid⟩
  refine ⟨said, reason, hmake, .next (hgrown.directory h) (hgrown.directory hnext) hbars, ?_⟩
  rintro ⟨hstraight, hnew⟩
  rw [List.mem_cons, not_or] at hstraight
  refine hsaid ⟨hstraight.2, fun hmade name => ?_⟩
  -- In a new directory only a piece that says nothing leads to one.
  by_cases hidle : isIdle piece = true
  · rw [resolve, if_pos hidle]
    exact hnew hmade name
  · rw [resolve_name (by simpa using hidle) (Ne.symm hstraight.1), resolve,
      hnew hmade piece] at hnext
    exact absurd hnext.symm (Option.some_ne_none _)

/-- A directory is made under the first piece, and others in it. -/
theorem Making.put {d d' : Disk} {made : Bool} {location pieces : List String} {piece : String}
    (hfits : d.Fits location piece (.directory [])) (hidle : isIdle piece = false)
    (hup : piece ≠ "..") (hfree : d.node? (location ++ [piece]) = none)
    (hrest : (d.putAt (.directory []) (location ++ [piece])).Making true (location ++ [piece])
      pieces d') : d.Making made location (piece :: pieces) d' := by
  have hstep : resolve location [piece] = location ++ [piece] := by
    rw [resolve_name hidle hup, resolve]
  have hfirst : Grown (DirectoryIn (piece :: pieces)) d
      (d.putAt (.directory []) (location ++ [piece])) :=
    Grown.refl.put hfits ⟨rfl, piece, List.mem_cons_self, hidle, hup, List.getLast?_concat⟩
  have hlater : Grown (DirectoryIn (piece :: pieces)) _ d' := hrest.grown.mono fun _ _ hmade =>
    ⟨hmade.1, hmade.2.imp fun _ hmem => ⟨List.mem_cons_of_mem _ hmem.1, hmem.2⟩⟩
  have hgrown := hfirst.trans hlater
  have hnext : d'.node? (resolve location [piece]) = some .directory := by
    rw [hstep]
    refine hlater.directory ?_
    rw [hfits.node?_putAt, if_pos rfl]
    rfl
  refine ⟨hgrown, ?_⟩
  rw [makeAlong_cons_free hidle hup hfree, if_neg (Nat.not_lt.2 hfits.short),
    walk_cons (hgrown.directory hfits.directory), hstep]
  refine hrest.outcome.imp_right ?_
  rintro ⟨said, reason, hmake, hbars, hsaid⟩
  refine ⟨said, reason, hmake,
    .next (hgrown.directory hfits.directory) hnext (by rwa [hstep]), fun hstraight => ?_⟩
  -- The new directory is empty.
  obtain ⟨hsame, htold⟩ := hsaid ⟨fun hmem => hstraight.1 (List.mem_cons_of_mem _ hmem),
    fun _ name => by
      rw [hfits.node?_putAt, if_neg (by simp)]
      by_contra hsome
      have hdirectory := Entry.node?_dropLast hsome
      exact absurd (hfree.symm.trans hdirectory) (Option.some_ne_none _).symm⟩
  exact ⟨hsame, .inl (htold.resolve_right fun h => absurd h.1 (by decide))⟩

/-- Making directories along pieces comes to an end for good. -/
theorem exists_making {d : Disk} {location : List String}
    (h : d.node? location = some .directory) (made : Bool) (pieces : List String) :
    ∃ d', d.Making made location pieces d' := by
  induction pieces generalizing d location made with
  | nil =>
    exact ⟨d, .refl, .inl ⟨rfl, location, walk_nil (h ▸ Option.some_ne_none _), h⟩⟩
  | cons piece pieces ih =>
    by_cases hnext : d.node? (resolve location [piece]) = some .directory
    · obtain ⟨d', hrest⟩ := ih hnext made
      exact ⟨d', .next h hnext hrest⟩
    · -- From a directory only a name leads to something else than a directory.
      have hidle : isIdle piece = false := by
        rw [Bool.eq_false_iff]
        intro hidle
        rw [resolve, if_pos hidle] at hnext
        exact hnext h
      have hup : piece ≠ ".." := by
        rintro rfl
        exact hnext (node?_dropLast h)
      rw [resolve_name hidle hup, resolve] at hnext
      by_cases hfree : d.node? (location ++ [piece]) = none
      · by_cases hlong : nameLimit < piece.utf8ByteSize
        · refine ⟨d, .refl, .inr ⟨.tooLong, .tooLong, ?_, .long h hidle hup hfree hlong pieces,
            fun _ => ⟨rfl, .inl rfl⟩⟩⟩
          rw [makeAlong_cons_free hidle hup hfree, if_pos hlong]
        · have hfits : d.Fits location piece (.directory []) :=
            ⟨h, fun hne => absurd hfree hne, rfl, Nat.not_lt.1 hlong⟩
          have hmade : (d.putAt (.directory []) (location ++ [piece])).node?
              (location ++ [piece]) = some .directory := by
            rw [hfits.node?_putAt, if_pos rfl]
            rfl
          obtain ⟨d', hrest⟩ := ih hmade true
          exact ⟨d', .put hfits hidle hup hfree hrest⟩
      · refine ⟨d, .refl, .inr ⟨_, _, makeAlong_cons_file hidle hup hfree hnext made pieces,
          .file h hidle hup hfree hnext pieces, fun hstraight => ?_⟩⟩
        -- A new directory would not hold what is in the way.
        have hmade : made = false := by
          rw [Bool.eq_false_iff]
          exact fun hmade => hfree (hstraight.2 hmade piece)
        exact ⟨by rw [hmade], .inr ⟨hmade, rfl⟩⟩

end Disk

end GridStyle
