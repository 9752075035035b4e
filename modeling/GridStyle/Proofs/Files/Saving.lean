import GridStyle.Proofs.Files.Making

/-!
# Saving Files

Whether a file can be saved under a path is settled by the first attempt, which may make directories
(`Disk.save_cases`). Afterwards the path stands for a file that every attempt writes, on this disk
and on all disks it grows into (`Disk.Opens`), or every attempt fails and changes nothing
(`Disk.Fails`). Then it fails for the reason of the first one (`Disk.FailsWith`), unless directories
had to be made along a double point.
-/

namespace GridStyle

open GridStyle.Path

namespace Disk

/-! ### The directory of a file -/

/-- The pieces in front of the name of a path lead to a directory. -/
def Reaches (d : Disk) (p : Path) (front location : List String) : Prop :=
  d.walk (d.start p) front = some location ∧ d.node? location = some .directory

theorem Grown.reaches {made : List String → Entry → Prop} {d d' : Disk} (h : Grown made d d')
    {p : Path} {front location : List String} (hreaches : d.Reaches p front location) :
    d'.Reaches p front location := by
  refine ⟨?_, h.directory hreaches.2⟩
  rw [h.start]
  exact h.walk hreaches.1

/-- The way to a file is there, or it has no double point. -/
def Direct (d : Disk) (p : Path) (front : List String) : Prop :=
  ".." ∉ front ∨ ∃ location, d.Reaches p front location

/-- Every attempt to save a file under the path fails and changes nothing. -/
def Fails (d : Disk) (p : Path) : Prop :=
  ∀ d', d.Extends d' → ∃ reason, ∀ text, d'.save p text = (d', some reason)

/-- Every attempt to save a file under the path fails for the same reason and changes nothing. -/
def FailsWith (d : Disk) (p : Path) (reason : DiskError) : Prop :=
  ∀ d', d.Extends d' → ∀ text, d'.save p text = (d', some reason)

theorem FailsWith.fails {d : Disk} {p : Path} {reason : DiskError} (h : d.FailsWith p reason) :
    d.Fails p :=
  fun d' h' => ⟨reason, h d' h'⟩

/-- Preparing to save makes another disk of the first one, by directories on the way to the file if
there is no such way. Then nothing is left to prepare on any larger disk, or saving fails now and
there. -/
structure Preparing (d : Disk) (p : Path) (front : List String) (d' : Disk) : Prop where
  grown : Grown (fun m new => (∀ location, ¬ d.Reaches p front location) ∧
    DirectoryIn front m new) d d'
  outcome : (d.prepare p = (d', none) ∧ (∃ location, d'.Reaches p front location) ∧
      ∀ d'', d'.Extends d'' → d''.prepare p = (d'', none)) ∨
    ∃ said, (∀ text, d.save p text = (d', some said)) ∧ d'.Fails p ∧
      (d.Direct p front → d'.FailsWith p said)

/-- Saving that fails for good from the start prepares nothing. -/
theorem FailsWith.preparing {d : Disk} {p : Path} {reason : DiskError} (h : d.FailsWith p reason)
    (front : List String) : d.Preparing p front d :=
  ⟨.refl, .inr ⟨reason, h d .refl, h.fails, fun _ => h⟩⟩

section Saving

variable {d d' : Disk} {p : Path} {reason : DiskError}

theorem save_of_unprepared (hprepare : d.prepare p = (d', some reason)) (text : String) :
    d.save p text = (d', some reason) := by
  rw [save, hprepare]

theorem save_of_target_error (hprepare : d.prepare p = (d', none))
    (htarget : d'.target p = .error reason) (text : String) :
    d.save p text = (d', some reason) := by
  simp only [save, hprepare, write, htarget, Except.map]

theorem save_of_target_ok {m : List String} (hprepare : d.prepare p = (d', none))
    (htarget : d'.target p = .ok m) (text : String) :
    d.save p text = (d'.putAt (.file (some text)) m, none) := by
  simp only [save, hprepare, write, htarget, Except.map, putAt]

end Saving

section Target

variable {d d' : Disk} {p : Path} {front : List String} {name : String} (hname : IsName name)
  (hpieces : p.pieces = front ++ [name])
include hname hpieces

theorem isEmpty_of_pieces : p.isEmpty = false := by
  rw [Bool.eq_false_iff, ne_eq, isEmpty_iff_pieces, hpieces]
  intro hempty
  have hlast := (List.append_inj' (hempty.trans (List.nil_append _).symm) rfl).2
  exact hname.ne_empty (List.cons.inj hlast).1

theorem endsWithSlash_of_pieces : p.endsWithSlash = false := by
  rw [Bool.eq_false_iff]
  intro hslash
  obtain ⟨_, -, hempty⟩ := pieces_of_endsWithSlash hslash
  have hlast := (List.append_inj' (hpieces.symm.trans hempty) rfl).2
  exact hname.ne_empty (List.cons.inj hlast).1

/-- The place for a file whose path ends in a name. -/
theorem target_eq :
    d.target p = if p.isUsable then
      (d.route (d.start p) front).bind fun location =>
        if !d.isDirectoryAt location then .error .notDirectory
        else if nameLimit < name.utf8ByteSize then .error .tooLong
        else if d.isDirectoryAt (location ++ [name]) then .error .isDirectory
        else .ok (location ++ [name])
    else .error p.refusal := by
  have hreverse : p.pieces.reverse.dropWhile (· == "") = name :: front.reverse := by
    rw [hpieces, List.reverse_append, List.reverse_singleton, List.singleton_append,
      List.dropWhile_cons_of_neg (by simpa using hname.ne_empty)]
  have hpoint : (name == ".") = false := by
    rw [beq_eq_false_iff_ne]
    rintro rfl
    exact absurd hname.notIdle (by decide)
  rw [target, isEmpty_of_pieces hname hpieces, if_neg Bool.false_ne_true, hreverse]
  cases p.isUsable with
  | false => rfl
  | true =>
    simp only [Bool.not_true, Bool.false_eq_true, if_false, List.reverse_reverse,
      endsWithSlash_of_pieces hname hpieces, hpoint, beq_eq_false_iff_ne.2 hname.notUp,
      Bool.or_self, if_true]
    rfl

theorem target_eq_ok_iff {m : List String} :
    d.target p = .ok m ↔
      name.utf8ByteSize ≤ nameLimit ∧ p.isUsable = true ∧
        ∃ location, d.Reaches p front location ∧
          d.node? (location ++ [name]) ≠ some .directory ∧ m = location ++ [name] := by
  rw [target_eq hname hpieces]
  simp only [Reaches, walk_eq_some_iff]
  cases p.isUsable with
  | false => simp
  | true =>
    rw [if_pos rfl]
    cases hroute : d.route (d.start p) front with
    | error e => simp [Except.bind]
    | ok location =>
      simp only [Except.bind, Bool.not_eq_true', ← Bool.not_eq_true, isDirectoryAt_iff,
        Except.ok.injEq, true_and]
      by_cases hdirectory : d.node? location = some .directory
      · by_cases hlong : nameLimit < name.utf8ByteSize
        · simp [hdirectory, hlong, Nat.not_le.2 hlong]
        · by_cases hfree : d.node? (location ++ [name]) = some .directory
          · simp [hdirectory, hlong, hfree]
          · simp [hdirectory, hlong, hfree, Nat.not_lt.1 hlong, eq_comm]
      · simp [hdirectory]

/-- With its directory there, a file that cannot be written can never be written. -/
theorem target_error_grown {location : List String} (hreaches : d.Reaches p front location)
    {reason : DiskError} (h : d.target p = .error reason) (hgrown : d.Extends d') :
    d'.target p = .error reason := by
  have hreaches' : d'.Reaches p front location := hgrown.reaches hreaches
  rw [target_eq hname hpieces] at h ⊢
  split
  · next husable =>
    rw [if_pos husable, walk_eq_some_iff.1 hreaches.1] at h
    rw [walk_eq_some_iff.1 hreaches'.1]
    simp only [Except.bind, isDirectoryAt_iff.2 hreaches.2, isDirectoryAt_iff.2 hreaches'.2] at h ⊢
    by_cases hlong : nameLimit < name.utf8ByteSize
    · simpa [hlong] using h
    · by_cases hdirectory : d.node? (location ++ [name]) = some .directory
      · simpa [hlong, isDirectoryAt_iff.2 hdirectory,
          isDirectoryAt_iff.2 (hgrown.directory hdirectory)] using h
      · rw [← isDirectoryAt_iff] at hdirectory
        simp [hlong, hdirectory] at h
  · next husable => rwa [if_neg husable] at h

/-- There is a file where the directory should be. -/
theorem target_of_file {above : List String} (hsame : SameWay front above) {m : List String}
    (hwalk : d.walk (d.start p) above = some m) (hnot : d.node? m ≠ some .directory) :
    d.target p = .error (if p.isUsable then .notDirectory else p.refusal) := by
  obtain ⟨base, idle, idle', hidle, hidle', rfl, rfl⟩ := hsame
  rw [walk_append, Option.bind_eq_some_iff] at hwalk
  obtain ⟨m', hbase, hrest⟩ := hwalk
  -- No piece is left behind the file, not even one that says nothing.
  obtain rfl : m = m' := by
    cases idle' with
    | nil => exact (walk_eq_some hrest).1
    | cons =>
      have hdirectory := directory_of_walk_cons hrest
      rw [walk_idle hdirectory hidle', Option.some.injEq] at hrest
      exact hrest.symm
  have hnot' : ¬ d.isDirectoryAt m = true := fun hat => hnot (isDirectoryAt_iff.1 hat)
  have hthere : d.existsAt m = true := existsAt_iff.2 (walk_eq_some hbase).2
  rw [target_eq hname hpieces, route_append, walk_eq_some_iff.1 hbase]
  split
  · cases idle with
    | nil => simp [Except.bind, route, hthere, hnot']
    | cons => simp [Except.bind, route, hthere, hnot']
  · rfl

end Target

theorem Reaches.walk_above {d : Disk} {p above : Path} {front location : List String}
    (h : d.Reaches p front location) (habsolute : above.isAbsolute = p.isAbsolute)
    (hsame : SameWay front above.pieces) :
    d.walk (d.start above) above.pieces = some location :=
  start_eq habsolute ▸ walk_sameWay hsame h.1 h.2

/-- A path has a name at its end, and another path is that of its directory. -/
structure Above (p : Path) (front : List String) (name : String) (above : Path) : Prop where
  isName : IsName name
  pieces_eq : p.pieces = front ++ [name]
  parent?_eq : p.parent? = some above
  isEmpty_eq : above.isEmpty = false
  isAbsolute_eq : above.isAbsolute = p.isAbsolute
  sameWay : SameWay front above.pieces

namespace Above

variable {d d' : Disk} {p above : Path} {front : List String} {name : String}
  (h : Above p front name above)
include h

theorem prepare_eq :
    d.prepare p = if d.pathExists above then (d, none) else d.makeDirectories above := by
  simp only [prepare, h.parent?_eq, h.isEmpty_eq, Bool.false_or]

/-- Nothing is left to prepare once the path of the directory leads somewhere. -/
theorem prepare_of_pathExists (hexists : d.pathExists above = true) : d.prepare p = (d, none) := by
  rw [h.prepare_eq, if_pos hexists]

/-- Directories are made where the path of the directory leads nowhere. -/
theorem prepare_of_missing (husable : above.isUsable = true)
    (hmissing : ¬ d.pathExists above = true) :
    d.prepare p = d.makeAlong false (d.start above) above.pieces := by
  rw [h.prepare_eq, if_neg hmissing, makeDirectories, if_pos husable]

/-- Saving fails where the path of the directory leads to a file. -/
theorem save_of_file {m : List String} (hm : d.locate? above = some m)
    (hnot : d.node? m ≠ some .directory) (text : String) :
    d.save p text = (d, some (if p.isUsable then .notDirectory else p.refusal)) := by
  have hwalk := (locate?_eq_some_iff.1 hm).2.2
  rw [start_eq h.isAbsolute_eq] at hwalk
  exact save_of_target_error (h.prepare_of_pathExists (pathExists_iff.2 ⟨m, hm⟩))
    (target_of_file h.isName h.pieces_eq h.sameWay hwalk hnot) text

/-- Saving fails where making the directory is barred. -/
theorem save_of_bars (husable : above.isUsable = true) (hmissing : ¬ d.pathExists above = true)
    {reason : DiskError} (hbars : d.Bars (d.start above) above.pieces reason) (text : String) :
    d.save p text = (d, some reason) :=
  save_of_unprepared ((h.prepare_of_missing husable hmissing).trans hbars.makeAlong) text

theorem fails_of_bars (husable : above.isUsable = true) {reason : DiskError}
    (hbars : d.Bars (d.start above) above.pieces reason) : d.Fails p := fun d' h' => by
  have hbars' := hbars.grown h'
  rw [← h'.start] at hbars'
  by_cases hfound : d'.pathExists above = true
  · -- What bars the way may be the file to which the path leads.
    obtain ⟨m, hm⟩ := pathExists_iff.1 hfound
    exact ⟨_, h.save_of_file hm (hbars'.of_walk .refl (locate?_eq_some_iff.1 hm).2.2).1⟩
  · exact ⟨reason, h.save_of_bars husable hfound hbars'⟩

/-- What is said where making the directory is barred stays the same if the path of the directory
leads nowhere, and so it is for a name that is too long. -/
theorem failsWith_of_bars (husable : above.isUsable = true) {reason : DiskError}
    (hbars : d.Bars (d.start above) above.pieces reason)
    (hnowhere : reason = .tooLong ∨ ¬ d.pathExists above = true) : d.FailsWith p reason := by
  intro d' h'
  have hbars' := hbars.grown h'
  rw [← h'.start] at hbars'
  refine h.save_of_bars husable (fun hfound => ?_) hbars'
  -- The path would have led there before.
  obtain ⟨m, hm⟩ := pathExists_iff.1 hfound
  have hwalk := (locate?_eq_some_iff.1 hm).2.2
  rw [h'.start] at hwalk
  obtain ⟨-, hwalk', hshort⟩ := hbars.of_walk h' hwalk
  exact hnowhere.resolve_left hshort
    (pathExists_iff.2 ⟨m, locate?_eq_some_iff.2 ⟨h.isEmpty_eq, husable, hwalk'⟩⟩)

/-- The path of the directory leads somewhere already. -/
theorem preparing_of_pathExists (hexists : d.pathExists above = true) :
    d.Preparing p front d := by
  obtain ⟨m, hm⟩ := pathExists_iff.1 hexists
  have hwalk := (locate?_eq_some_iff.1 hm).2.2
  by_cases hdirectory : d.node? m = some .directory
  · have hstill : ∀ d'', d.Extends d'' → d''.prepare p = (d'', none) := fun d'' h'' =>
      h.prepare_of_pathExists (h''.pathExists hexists)
    have hreaches := walk_sameWay h.sameWay.symm hwalk hdirectory
    exact ⟨.refl, .inl ⟨hstill d .refl,
      ⟨m, start_eq h.isAbsolute_eq ▸ hreaches, hdirectory⟩, hstill⟩⟩
  · -- It leads to a file, so it never leads to a directory.
    have hfails : d.FailsWith p (if p.isUsable then .notDirectory else p.refusal) :=
      fun d'' h'' => h.save_of_file (h''.locate? hm)
        (h''.ne_directory (walk_eq_some hwalk).2 hdirectory)
    exact hfails.preparing front

/-- No disk takes the path of the directory. -/
theorem preparing_of_not_usable (husable : ¬ above.isUsable = true) : d.Preparing p front d := by
  have hfails : d.FailsWith p above.refusal := fun d'' _ => by
    have hmissing : ¬ d''.pathExists above = true := fun hfound => by
      obtain ⟨m, hm⟩ := pathExists_iff.1 hfound
      exact husable (locate?_eq_some_iff.1 hm).2.1
    refine save_of_unprepared ?_
    rw [h.prepare_eq, if_neg hmissing, makeDirectories, if_neg husable]
  exact hfails.preparing front

/-- The directory is made, or making it is barred. -/
theorem preparing_of_missing (hroot : d.node? (d.start p) = some .directory)
    (husable : above.isUsable = true) (hmissing : ¬ d.pathExists above = true) :
    ∃ d', d.Preparing p front d' := by
  obtain ⟨d', hgrown, houtcome⟩ :=
    exists_making (start_eq h.isAbsolute_eq ▸ hroot) false above.pieces
  have hmake := h.prepare_of_missing husable hmissing
  -- Were there a way to a location, the directory would exist.
  have hnot : ∀ location, ¬ d.Reaches p front location := fun location hreaches =>
    hmissing (pathExists_iff.2 ⟨location, locate?_eq_some_iff.2
      ⟨h.isEmpty_eq, husable, hreaches.walk_above h.isAbsolute_eq h.sameWay⟩⟩)
  refine ⟨d', hgrown.mono fun m new hmade => ⟨hnot, hmade.1, ?_⟩, ?_⟩
  · exact hmade.2.imp fun _ hp => ⟨h.sameWay.symm.mem hp.2.1 hp.1, hp.2⟩
  obtain ⟨hdone, m, hm, hdirectory⟩ | ⟨said, reason, hstuck, hbars, htold⟩ := houtcome
  · left
    rw [← hgrown.start] at hm
    have hreaches := walk_sameWay h.sameWay.symm hm hdirectory
    have hfound := pathExists_iff.2 ⟨m, locate?_eq_some_iff.2 ⟨h.isEmpty_eq, husable, hm⟩⟩
    exact ⟨hmake.trans hdone, ⟨m, start_eq h.isAbsolute_eq ▸ hreaches, hdirectory⟩,
      fun d'' h'' => h.prepare_of_pathExists (h''.pathExists hfound)⟩
  · right
    rw [← hgrown.start] at hbars
    refine ⟨said, save_of_unprepared (hmake.trans hstuck), h.fails_of_bars husable hbars,
      fun hdirect => ?_⟩
    have hup : ".." ∉ above.pieces := fun hmem =>
      (hdirect.resolve_right (not_exists.2 hnot)) (h.sameWay.symm.mem (by decide) hmem)
    obtain ⟨rfl, hwhere⟩ := htold ⟨hup, fun hmade => absurd hmade Bool.false_ne_true⟩
    refine h.failsWith_of_bars husable hbars (hwhere.imp_right ?_)
    rintro ⟨-, rfl⟩
    exact hmissing

end Above

theorem exists_preparing {d : Disk} {p : Path} {front : List String} {name : String}
    (hroot : d.node? (d.start p) = some .directory) (hname : IsName name)
    (hpieces : p.pieces = front ++ [name]) : ∃ d', d.Preparing p front d' := by
  have hends : p.EndsIn front name := ⟨hname, [], by simp [AllIdle], hpieces⟩
  obtain ⟨rfl, hparent⟩ | ⟨above, hparent, hempty, habsolute, hsame⟩ := hends.parent?_cases
  · have hprepare : ∀ d' : Disk, d'.prepare p = (d', none) := fun d' => by
      rw [prepare, hparent]
      rfl
    exact ⟨d, .refl, .inl ⟨hprepare d,
      ⟨_, walk_nil (hroot ▸ Option.some_ne_none _), hroot⟩, fun d'' _ => hprepare d''⟩⟩
  · have habove : Above p front name above :=
      ⟨hname, hpieces, hparent, hempty, habsolute, hsame⟩
    by_cases hexists : d.pathExists above = true
    · exact ⟨d, habove.preparing_of_pathExists hexists⟩
    · by_cases husable : above.isUsable = true
      · exact habove.preparing_of_missing hroot husable hexists
      · exact ⟨d, habove.preparing_of_not_usable husable⟩

/-! ### The file -/

/-- The path stands for the file at a location, and every attempt to save it succeeds. -/
def Opens (d : Disk) (p : Path) (location : List String) : Prop :=
  ∀ d', d.Extends d' → d'.locate? p = some location ∧
    (∃ text, d'.node? location = some (.file text)) ∧
    ∀ text, d'.save p text = (d'.putAt (.file (some text)) location, none)

section File

variable {d d' : Disk} {p : Path} {front : List String} {name : String}

/-- A name in the directory of a path is looked up there. -/
theorem locate?_of_reaches (hname : IsName name) (hpieces : p.pieces = front ++ [name])
    (husable : p.isUsable = true) {location : List String} (hreaches : d.Reaches p front location)
    (hthere : d.node? (location ++ [name]) ≠ none) : d.locate? p = some (location ++ [name]) := by
  refine locate?_eq_some_iff.2 ⟨isEmpty_of_pieces hname hpieces, husable, ?_⟩
  rw [hpieces, walk_append, hreaches.1, Option.bind_some, walk_cons hreaches.2,
    resolve_name hname.notIdle hname.notUp, resolve]
  exact walk_nil hthere

/-- A file that was written is written by every later attempt. -/
theorem opens_of_file (hname : IsName name) (hpieces : p.pieces = front ++ [name])
    (hshort : name.utf8ByteSize ≤ nameLimit) (husable : p.isUsable = true)
    {location : List String} (hreaches : d.Reaches p front location) {text : Option String}
    (hfile : d.node? (location ++ [name]) = some (.file text))
    (hprepare : ∀ d', d.Extends d' → d'.prepare p = (d', none)) :
    d.Opens p (location ++ [name]) := by
  intro d' h'
  obtain ⟨text', htext'⟩ := h'.file hfile
  have hreaches' := h'.reaches hreaches
  have hthere := locate?_of_reaches hname hpieces husable hreaches' (htext' ▸ Option.some_ne_none _)
  refine ⟨hthere, ⟨text', htext'⟩, fun new => ?_⟩
  refine save_of_target_ok (hprepare d' h') ?_ new
  refine (target_eq_ok_iff hname hpieces).2 ⟨hshort, husable, location, hreaches', ?_, rfl⟩
  rw [htext']
  simp

/-- What the first attempt to save a file settles. Directories are made on the way to it if there is
no way, and then the file is written, now and by every later attempt, or every attempt fails. -/
theorem save_cases (hname : IsName name) (hpieces : p.pieces = front ++ [name])
    (hroot : d.node? (d.start p) = some .directory) :
    ∃ d', Grown (fun m new => (∀ location, ¬ d.Reaches p front location) ∧
        DirectoryIn front m new) d d' ∧
      ((∃ location, ∀ text, d'.Fits location name (.file (some text)) ∧
          d.save p text = (d'.putAt (.file (some text)) (location ++ [name]), none) ∧
          (d'.putAt (.file (some text)) (location ++ [name])).Opens p (location ++ [name])) ∨
        ∃ said, (∀ text, d.save p text = (d', some said)) ∧ d'.Fails p ∧
          (d.Direct p front → d'.FailsWith p said)) := by
  obtain ⟨d', hgrown, houtcome⟩ := exists_preparing hroot hname hpieces
  refine ⟨d', hgrown, ?_⟩
  obtain ⟨hprepare, ⟨location, hreaches⟩, hstill⟩ | hfails := houtcome
  · -- There is a way now. Either no file can be where it leads, or every attempt writes there.
    cases htarget : d'.target p with
    | error reason =>
      have hfails : d'.FailsWith p reason := fun d'' h'' =>
        save_of_target_error (hstill d'' h'')
          (target_error_grown hname hpieces hreaches htarget h'')
      exact .inr ⟨reason, save_of_target_error hprepare htarget, hfails.fails, fun _ => hfails⟩
    | ok target =>
      left
      obtain ⟨hshort, husable, location, hreaches, hfree, rfl⟩ :=
        (target_eq_ok_iff hname hpieces).1 htarget
      refine ⟨location, fun text => ?_⟩
      have hfits : d'.Fits location name (.file (some text)) :=
        ⟨hreaches.2, fun _ => ⟨hfree, rfl⟩, rfl, hshort⟩
      have hput : d'.Extends (d'.putAt (.file (some text)) (location ++ [name])) :=
        Grown.refl.put hfits trivial
      have hfile : (d'.putAt (.file (some text)) (location ++ [name])).node? (location ++ [name]) =
          some (.file (some text)) := by
        rw [hfits.node?_putAt, if_pos rfl]
        rfl
      exact ⟨hfits, save_of_target_ok hprepare htarget text,
        opens_of_file hname hpieces hshort husable (hput.reaches hreaches) hfile
          fun d'' h'' => hstill d'' (hput.trans h'')⟩
  · -- There is no way, and none will be made.
    exact .inr hfails

end File

end Disk

end GridStyle
