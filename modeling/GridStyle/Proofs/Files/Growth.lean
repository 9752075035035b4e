import GridStyle.Proofs.Files.Tree

/-!
# Growing Disks

A disk grows where directories are made and files are written (`Disk.Grown`): no entry goes, a
directory stays one and so does a file. So a path that leads somewhere leads there on every disk
that has grown (`Grown.walk`), and a file keeps its text unless one is written at its location
(`Grown.kept`).

Where a walk ends is told by the pieces alone (`Path.resolve`); the disk only decides whether it
gets there.
-/

namespace GridStyle

namespace Disk

open Entry (Node)

/-- What a disk shows at a location. -/
def node? (d : Disk) (location : List String) : Option Node := d.root.node? location

theorem isDirectoryAt_iff {d : Disk} {location : List String} :
    d.isDirectoryAt location = true ↔ d.node? location = some .directory := by
  rw [isDirectoryAt, Option.any_eq_true, node?, Entry.node?, Option.map_eq_some_iff]
  simp only [Entry.node_eq_directory_iff]

theorem existsAt_iff {d : Disk} {location : List String} :
    d.existsAt location = true ↔ d.node? location ≠ none := by
  rw [existsAt, node?, Entry.node?, Option.isSome_iff_ne_none, ne_eq, ne_eq, Option.map_eq_none_iff]

/-- The directory of a directory is one. -/
theorem node?_dropLast {d : Disk} {location : List String}
    (h : d.node? location = some .directory) : d.node? location.dropLast = some .directory := by
  obtain rfl | ⟨front, name, rfl⟩ := List.eq_nil_or_concat location
  · exact h
  · rw [List.concat_eq_append] at h ⊢
    rw [List.dropLast_concat]
    exact Entry.node?_dropLast (h ▸ Option.some_ne_none _)

/-- The disk with an entry put at a location. -/
def putAt (d : Disk) (new : Entry) (location : List String) : Disk :=
  { d with root := d.root.put new location }

/-- There is room for an entry under a name: the entry holds nothing and the name is not too long,
its directory is there, and what has the name already is a file that a file replaces. -/
structure Fits (d : Disk) (location : List String) (name : String) (new : Entry) : Prop where
  directory : d.node? location = some .directory
  replaces : d.node? (location ++ [name]) ≠ none →
    d.node? (location ++ [name]) ≠ some .directory ∧ new.isDirectory = false
  empty : new.entries = []
  short : name.utf8ByteSize ≤ nameLimit

/-- An entry that is put where it fits shows at its location and nowhere else. -/
theorem Fits.node?_putAt {d : Disk} {location : List String} {name : String} {new : Entry}
    (h : d.Fits location name new) (m : List String) :
    (d.putAt new (location ++ [name])).node? m =
      if m = location ++ [name] then some new.node else d.node? m := by
  refine Entry.node?_put h.directory (fun hold : d.node? _ = _ => ?_) h.empty m
  exact (h.replaces (hold ▸ Option.some_ne_none _)).1 hold

/-- The disk became another one by putting entries where they fit, each of them among those that
are `made` at its location. -/
inductive Grown (made : List String → Entry → Prop) (d : Disk) : Disk → Prop
  /-- Nothing was put. -/
  | refl : Grown made d d
  /-- One more entry was put. -/
  | put {d' : Disk} {location : List String} {name : String} {new : Entry} (h : Grown made d d')
      (hfits : d'.Fits location name new) (hmade : made (location ++ [name]) new) :
      Grown made d (d'.putAt new (location ++ [name]))

/-- The disk became another one by putting entries where they fit. -/
abbrev Extends (d d' : Disk) : Prop := Grown (fun _ _ => True) d d'

namespace Grown

variable {made made' : List String → Entry → Prop} {d d' d'' : Disk} {m : List String}

theorem trans (h : Grown made d d') (h' : Grown made d' d'') : Grown made d d'' := by
  induction h' with
  | refl => exact h
  | put _ hfits hmade ih => exact ih.put hfits hmade

theorem mono (h : Grown made d d') (himp : ∀ m e, made m e → made' m e) : Grown made' d d' := by
  induction h with
  | refl => exact .refl
  | put _ hfits hmade ih => exact ih.put hfits (himp _ _ hmade)

theorem any (h : Grown made d d') : d.Extends d' := h.mono fun _ _ _ => trivial

theorem working (h : Grown made d d') : d'.working = d.working := by
  induction h with
  | refl => rfl
  | put _ _ _ ih => exact ih

theorem start (h : Grown made d d') (p : Path) : d'.start p = d.start p := by
  rw [Disk.start, Disk.start, h.working]

/-- A directory stays one. -/
theorem directory (h : Grown made d d') (hm : d.node? m = some .directory) :
    d'.node? m = some .directory := by
  induction h with
  | refl => exact hm
  | put _ hfits _ ih =>
    rw [hfits.node?_putAt]
    split
    · next heq =>
      subst heq
      exact absurd ih (hfits.replaces (ih ▸ Option.some_ne_none _)).1
    · exact ih

/-- A file stays one, though its text may change. -/
theorem file (h : Grown made d d') {text : Option String} (hm : d.node? m = some (.file text)) :
    ∃ text', d'.node? m = some (.file text') := by
  induction h with
  | refl => exact ⟨text, hm⟩
  | @put _ _ _ new _ hfits _ ih =>
    obtain ⟨text', hold⟩ := ih
    rw [hfits.node?_putAt]
    split
    · next heq =>
      subst heq
      have hnot := (hfits.replaces (hold ▸ Option.some_ne_none _)).2
      cases new with
      | file text => exact ⟨text, rfl⟩
      | directory => exact absurd hnot (by simp [Entry.isDirectory])
    · exact ⟨text', hold⟩

/-- What is there stays there. -/
theorem ne_none (h : Grown made d d') (hm : d.node? m ≠ none) : d'.node? m ≠ none := by
  cases hnode : d.node? m with
  | none => exact absurd hnode hm
  | some node =>
    cases node with
    | directory => rw [h.directory hnode]; exact Option.some_ne_none _
    | file =>
      obtain ⟨text, htext⟩ := h.file hnode
      rw [htext]
      exact Option.some_ne_none _

/-- What is there and is not a directory does not become one. -/
theorem ne_directory (h : Grown made d d') (hm : d.node? m ≠ none)
    (hnot : d.node? m ≠ some .directory) : d'.node? m ≠ some .directory := by
  cases hnode : d.node? m with
  | none => exact absurd hnode hm
  | some node =>
    cases node with
    | directory => exact absurd hnode hnot
    | file =>
      obtain ⟨text, htext⟩ := h.file hnode
      rw [htext]
      simp

/-- What is at a location where no file is made stays as it is. -/
theorem kept (h : Grown made d d') {node : Node} (hm : d.node? m = some node)
    (hmade : ∀ new, made m new → new.isDirectory = true) : d'.node? m = some node := by
  induction h with
  | refl => exact hm
  | put _ hfits hput ih =>
    rw [hfits.node?_putAt, if_neg]
    · exact ih
    · rintro rfl
      have hnot := (hfits.replaces (ih ▸ Option.some_ne_none _)).2
      rw [hmade _ hput] at hnot
      exact Bool.noConfusion hnot

/-- Nothing changes at a location where nothing is made. -/
theorem node?_eq (h : Grown made d d') (hmade : ∀ new, ¬ made m new) : d'.node? m = d.node? m := by
  induction h with
  | refl => rfl
  | put _ hfits hput ih =>
    rw [hfits.node?_putAt, if_neg, ih]
    rintro rfl
    exact hmade _ hput

/-- Nothing appears under a name that is too long. -/
theorem short (h : Grown made d d') {name : String} (hm : d'.node? (m ++ [name]) ≠ none) :
    d.node? (m ++ [name]) ≠ none ∨ name.utf8ByteSize ≤ nameLimit := by
  induction h with
  | refl => exact .inl hm
  | put _ hfits _ ih =>
    rw [hfits.node?_putAt] at hm
    split at hm
    · next heq =>
      have hname : [name] = [_] := (List.append_inj' heq rfl).2
      rw [List.cons.injEq] at hname
      exact .inr (hname.1 ▸ hfits.short)
    · exact ih hm

end Grown

/-- A file is at the location, under a name that is not too long. -/
def HoldsFile (d : Disk) (m : List String) : Prop :=
  ∃ location name, m = location ++ [name] ∧ name.utf8ByteSize ≤ nameLimit ∧
    ∃ text, d.node? m = some (.file text)

namespace HoldsFile

variable {made : List String → Entry → Prop} {d d' : Disk} {m : List String}

/-- The file can be written again. -/
theorem exists_fits (h : d.HoldsFile m) (text : Option String) :
    ∃ location name, m = location ++ [name] ∧ d.Fits location name (.file text) := by
  obtain ⟨location, name, rfl, hshort, old, hold⟩ := h
  refine ⟨location, name, rfl, ?_, fun _ => ⟨by simp [hold], rfl⟩, rfl, hshort⟩
  exact Entry.node?_dropLast (hold ▸ Option.some_ne_none _)

theorem grown_putAt (h : d.HoldsFile m) {text : Option String} (hmade : made m (.file text)) :
    Grown made d (d.putAt (.file text) m) := by
  obtain ⟨location, name, rfl, hfits⟩ := h.exists_fits text
  exact Grown.refl.put hfits hmade

theorem extends_putAt (h : d.HoldsFile m) (text : Option String) :
    d.Extends (d.putAt (.file text) m) :=
  h.grown_putAt trivial

theorem grown (h : d.HoldsFile m) (hgrown : Grown made d d') : d'.HoldsFile m := by
  obtain ⟨location, name, rfl, hshort, old, hold⟩ := h
  exact ⟨location, name, rfl, hshort, hgrown.file hold⟩

end HoldsFile

end Disk

/-! ### Walks -/

/-- Where the pieces of a path lead, as far as they tell. -/
def Path.resolve (location : List String) : List String → List String
  | [] => location
  | piece :: rest =>
    if isIdle piece then resolve location rest
    else if piece = ".." then resolve location.dropLast rest
    else resolve (location ++ [piece]) rest

theorem Path.resolve_name {name : String} (hidle : isIdle name = false) (hup : name ≠ "..")
    (location rest : List String) :
    resolve location (name :: rest) = resolve (location ++ [name]) rest := by
  rw [resolve, if_neg (Bool.eq_false_iff.1 hidle), if_neg hup]

namespace Disk

/-- Where the pieces of a path lead from a location, if they lead to something. -/
def walk (d : Disk) (location pieces : List String) : Option (List String) :=
  (d.route location pieces).toOption

theorem walk_nil_eq (d : Disk) (location : List String) :
    d.walk location [] = if d.existsAt location then some location else none := by
  rw [walk, route]
  split <;> rfl

theorem walk_cons_eq (d : Disk) (location : List String) (piece : String) (rest : List String) :
    d.walk location (piece :: rest) =
      if !d.isDirectoryAt location then none
      else if Path.isIdle piece then d.walk location rest
      else if piece = ".." then d.walk location.dropLast rest
      else d.walk (location ++ [piece]) rest := by
  simp only [walk, route]
  split
  · rfl
  · split
    · rfl
    · split <;> rfl

/-- A route along more pieces goes on where it was. -/
theorem route_append (d : Disk) (location front back : List String) :
    d.route location (front ++ back) =
      (d.route location front).bind fun m => d.route m back := by
  induction front generalizing location with
  | nil =>
    rw [List.nil_append, route]
    split
    · rfl
    · next hexists =>
      -- Nothing is there, so it is no directory either.
      have hnone : d.node? location = none :=
        Classical.byContradiction fun hne => hexists (existsAt_iff.2 hne)
      have hnot : ¬ d.isDirectoryAt location = true := by
        rw [isDirectoryAt_iff, hnone]
        exact (Option.some_ne_none _).symm
      cases back with
      | nil => rw [route, if_neg hexists]; rfl
      | cons piece back => rw [route, if_pos (by simpa using hnot), if_neg hexists]; rfl
  | cons piece front ih =>
    rw [List.cons_append, route, route]
    split
    · rfl
    · split
      · exact ih _
      · split <;> exact ih _

/-- A walk along more pieces goes on where it was. -/
theorem walk_append (d : Disk) (location front back : List String) :
    d.walk location (front ++ back) = (d.walk location front).bind fun m => d.walk m back := by
  rw [walk, route_append, walk]
  cases d.route location front <;> rfl

theorem walk_eq_some_iff {d : Disk} {location m pieces : List String} :
    d.walk location pieces = some m ↔ d.route location pieces = .ok m := by
  rw [walk]
  cases d.route location pieces <;> simp [Except.toOption]

/-- A walk ends where the pieces lead, and something is there. -/
theorem walk_eq_some {d : Disk} {location m pieces : List String}
    (h : d.walk location pieces = some m) :
    m = Path.resolve location pieces ∧ d.node? m ≠ none := by
  induction pieces generalizing location with
  | nil =>
    rw [walk_nil_eq] at h
    split at h
    · next hexists =>
      rw [Option.some.injEq] at h
      exact ⟨h.symm, h ▸ existsAt_iff.1 hexists⟩
    · exact absurd h.symm (Option.some_ne_none _)
  | cons piece pieces ih =>
    rw [walk_cons_eq] at h
    split at h
    · exact absurd h.symm (Option.some_ne_none _)
    · rw [Path.resolve]
      split at h
      · next hidle => rw [if_pos hidle]; exact ih h
      · next hidle =>
        rw [if_neg hidle]
        split at h
        · next hup => rw [if_pos hup]; exact ih h
        · next hup => rw [if_neg hup]; exact ih h

/-- One step of a walk starts in a directory. -/
theorem directory_of_walk_cons {d : Disk} {location m rest : List String} {piece : String}
    (h : d.walk location (piece :: rest) = some m) : d.node? location = some .directory := by
  rw [walk_cons_eq] at h
  split at h
  · exact absurd h.symm (Option.some_ne_none _)
  · next hdirectory => exact isDirectoryAt_iff.1 (by simpa using hdirectory)

theorem walk_nil {d : Disk} {location : List String} (h : d.node? location ≠ none) :
    d.walk location [] = some location := by
  rw [walk_nil_eq, if_pos (existsAt_iff.2 h)]

/-- A step of a walk from a directory. -/
theorem walk_cons {d : Disk} {location : List String} (h : d.node? location = some .directory)
    (piece : String) (rest : List String) :
    d.walk location (piece :: rest) = d.walk (Path.resolve location [piece]) rest := by
  rw [walk_cons_eq, if_neg (by simp [isDirectoryAt_iff.2 h]), Path.resolve]
  split
  · rfl
  · split <;> rfl

/-- A path that leads somewhere leads there after the disk has grown. -/
theorem Grown.walk {made : List String → Entry → Prop} {d d' : Disk} (h : Grown made d d')
    {location m pieces : List String} (hwalk : d.walk location pieces = some m) :
    d'.walk location pieces = some m := by
  induction pieces generalizing location with
  | nil =>
    obtain ⟨rfl, hm⟩ := walk_eq_some hwalk
    exact walk_nil (h.ne_none hm)
  | cons piece pieces ih =>
    have hdirectory := directory_of_walk_cons hwalk
    rw [walk_cons hdirectory] at hwalk
    rw [walk_cons (h.directory hdirectory)]
    exact ih hwalk

end Disk

end GridStyle
