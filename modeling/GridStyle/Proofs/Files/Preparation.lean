import GridStyle.Proofs.Files.Saving

/-!
# Preparing Once

The first attempt to save a file makes the directories above it. As long as only files are written
afterwards, no directory comes or goes, so the path of the file keeps its place
(`Disk.Grown.target_eq`), and saving writes there whatever was written before, or never
(`Disk.Readies`).

What is prepared is told by the directory of the path alone (`Disk.prepare_congr`), so paths with
the same directory are prepared together.
-/

namespace GridStyle

open GridStyle.Path

namespace Disk

/-! ### Growing by files -/

/-- The entry is a file. -/
def FileOnly (_ : List String) (new : Entry) : Prop := new.isDirectory = false

namespace Grown

variable {made : List String → Entry → Prop} {d d' : Disk}

/-- Nothing is put if nothing can be made. -/
theorem eq_self (h : Grown made d d') (hmade : ∀ m new, ¬ made m new) : d' = d := by
  cases h with
  | refl => rfl
  | put _ _ hnew => exact absurd hnew (hmade _ _)

section Files

variable (h : Grown FileOnly d d')
include h

/-- Files make no directories. -/
theorem directory_iff {m : List String} :
    d'.node? m = some .directory ↔ d.node? m = some .directory := by
  refine ⟨fun hm => ?_, h.directory⟩
  induction h with
  | refl => exact hm
  | put _ hfits hfile ih =>
    rw [hfits.node?_putAt] at hm
    split at hm
    · -- The new entry is a file.
      rw [Option.some.injEq, Entry.node_eq_directory_iff] at hm
      exact absurd (hm.symm.trans hfile) (by decide)
    · exact ih hm

/-- The way to a directory was there before. -/
theorem walk_of_directory {location m pieces : List String}
    (hwalk : d'.walk location pieces = some m) (hm : d'.node? m = some .directory) :
    d.walk location pieces = some m := by
  induction pieces generalizing location with
  | nil =>
    obtain ⟨rfl, -⟩ := walk_eq_some hwalk
    exact walk_nil (h.directory_iff.1 hm ▸ Option.some_ne_none _)
  | cons piece pieces ih =>
    have hdirectory := directory_of_walk_cons hwalk
    rw [walk_cons hdirectory] at hwalk
    rw [walk_cons (h.directory_iff.1 hdirectory)]
    exact ih hwalk

theorem reaches_iff {p : Path} {front location : List String} :
    d'.Reaches p front location ↔ d.Reaches p front location := by
  refine ⟨fun hreaches => ⟨?_, h.directory_iff.1 hreaches.2⟩, h.reaches⟩
  rw [← h.start]
  exact h.walk_of_directory hreaches.1 hreaches.2

/-- A path whose directory is there has the place that it had before. -/
theorem target_eq {p : Path} {front : List String} {name : String} (hname : IsName name)
    (hpieces : p.pieces = front ++ [name]) {location : List String}
    (hreaches : d.Reaches p front location) : d'.target p = d.target p := by
  cases htarget : d.target p with
  | error reason => exact target_error_grown hname hpieces hreaches htarget h.any
  | ok m =>
    rw [target_eq_ok_iff hname hpieces] at htarget ⊢
    simpa only [h.reaches_iff, h.directory_iff, ne_eq] using htarget

end Files

end Grown

/-- Every file can be written at the location. -/
def Takes (d : Disk) (m : List String) : Prop :=
  ∃ location name, m = location ++ [name] ∧ ∀ text, d.Fits location name (.file text)

namespace Takes

variable {made : List String → Entry → Prop} {d d' : Disk} {m : List String}

theorem grown (h : d.Takes m) (hgrown : Grown FileOnly d d') : d'.Takes m := by
  obtain ⟨location, name, rfl, hfits⟩ := h
  refine ⟨location, name, rfl, fun text => ⟨hgrown.directory (hfits text).directory, fun _ => ?_,
    rfl, (hfits text).short⟩⟩
  refine ⟨fun hdirectory => ?_, rfl⟩
  -- A directory there would have been in the way before.
  have hold := hgrown.directory_iff.1 hdirectory
  exact ((hfits text).replaces (hold ▸ Option.some_ne_none _)).1 hold

theorem grown_putAt (h : d.Takes m) {text : Option String} (hmade : made m (.file text)) :
    Grown made d (d.putAt (.file text) m) := by
  obtain ⟨location, name, rfl, hfits⟩ := h
  exact Grown.refl.put (hfits text) hmade

theorem node?_putAt (h : d.Takes m) (text : Option String) (other : List String) :
    (d.putAt (.file text) m).node? other =
      if other = m then some (.file text) else d.node? other := by
  obtain ⟨location, name, rfl, hfits⟩ := h
  exact (hfits text).node?_putAt other

end Takes

theorem takes_of_target {d : Disk} {p : Path} {front m : List String} {name : String}
    (hname : IsName name) (hpieces : p.pieces = front ++ [name]) (hm : d.target p = .ok m) :
    d.Takes m := by
  obtain ⟨hshort, -, location, hreaches, hfree, rfl⟩ := (target_eq_ok_iff hname hpieces).1 hm
  exact ⟨location, name, rfl, fun _ => ⟨hreaches.2, fun _ => ⟨hfree, rfl⟩, rfl, hshort⟩⟩

/-! ### What is left to save -/

/-- Only the directory of a path is prepared. -/
theorem prepare_congr {p q : Path} (h : p.parent? = q.parent?) (d : Disk) :
    d.prepare p = d.prepare q := by
  rw [prepare, prepare, h]

/-- Where a file is saved under a path, once its directory is prepared. -/
def place (d : Disk) (p : Path) : Except DiskError (List String) :=
  match d.prepare p with
  | (_, some e) => .error e
  | (d, none) => d.target p

/-- Write a text at a place, if there is one. -/
def saveAt (d : Disk) (place : Except DiskError (List String)) (text : String) :
    Disk × Option DiskError :=
  match place with
  | .error e => (d, some e)
  | .ok m => (d.putAt (.file (some text)) m, none)

theorem saveAt_eq_error_iff {d d' : Disk} {place : Except DiskError (List String)} {text : String}
    {reason : DiskError} :
    d.saveAt place text = (d', some reason) ↔ place = .error reason ∧ d = d' := by
  cases place <;> simp [saveAt, and_comm]

theorem place_of_prepared {d d' : Disk} {p : Path} (h : d.prepare p = (d', none)) :
    d.place p = d'.target p := by
  simp only [place, h]

/-- Saving with the directory there is writing to the target. -/
theorem save_of_prepared {d d' : Disk} {p : Path} (h : d.prepare p = (d', none)) (text : String) :
    d.save p text = d'.saveAt (d'.target p) text := by
  cases htarget : d'.target p with
  | error e => exact save_of_target_error h htarget text
  | ok m => exact save_of_target_ok h htarget text

theorem save_eq_saveAt (d : Disk) (p : Path) (text : String) :
    d.save p text = (d.prepare p).1.saveAt (d.place p) text := by
  obtain ⟨⟨d', error⟩, hprepare⟩ : ∃ prepared, d.prepare p = prepared := ⟨_, rfl⟩
  cases error with
  | some e =>
    simp only [place, hprepare]
    exact save_of_unprepared hprepare text
  | none => rw [save_of_prepared hprepare, place_of_prepared hprepare, hprepare]

/-- Saving that fails leaves what was prepared. -/
theorem of_save_eq_error {d d' : Disk} {p : Path} {text : String} {reason : DiskError}
    (h : d.save p text = (d', some reason)) :
    (d.prepare p).1 = d' ∧ d.place p = .error reason := by
  rw [save_eq_saveAt, saveAt_eq_error_iff] at h
  exact h.symm

theorem Preparing.fst_prepare {d d' : Disk} {p : Path} {front : List String}
    (h : d.Preparing p front d') : (d.prepare p).1 = d' := by
  obtain ⟨hprepare, -⟩ | ⟨said, hfails, -⟩ := h.outcome
  · rw [hprepare]
  · exact (of_save_eq_error (hfails "")).1

end Disk

/-! ### Attempts to save -/

/-- The reason of a failure as far as it counts. All reasons count as one if it is not `exact`. -/
def DiskError.upTo (exact : Bool) (e : DiskError) : DiskError := if exact then e else .missing

namespace Disk

/-- Two attempts to save leave one disk, and both fail or none does. They do so for one reason if it
is `exact`. -/
def SavedAlike (exact : Bool) (a b : Disk × Option DiskError) : Prop :=
  a.1 = b.1 ∧ a.2.map (DiskError.upTo exact) = b.2.map (DiskError.upTo exact)

theorem SavedAlike.of_eq {exact : Bool} {a b : Disk × Option DiskError} (h : a = b) :
    SavedAlike exact a b :=
  h ▸ ⟨rfl, rfl⟩

theorem savedAlike_error {exact : Bool} {d : Disk} {reason reason' : DiskError}
    (h : exact = true → reason = reason') :
    SavedAlike exact (d, some reason) (d, some reason') := by
  refine ⟨rfl, congrArg some ?_⟩
  cases exact with
  | false => rfl
  | true => rw [h rfl]

/-- Preparing to save a file under a path makes another disk of the first one. From then on, as long
as only files are written, saving writes at one place or nowhere. -/
structure Readies (d : Disk) (exact : Bool) (p : Path) (d' : Disk) : Prop where
  first : ∀ text, SavedAlike exact (d.save p text) (d'.saveAt (d'.place p) text)
  later : ∀ d'', Grown FileOnly d' d'' → ∀ text,
    SavedAlike exact (d''.save p text) (d''.saveAt (d'.place p) text)
  target_of_place : ∀ m, d'.place p = .ok m → d'.target p = .ok m

theorem Preparing.readies {d d' : Disk} {p : Path} {front : List String} {name : String}
    (h : d.Preparing p front d') (hname : IsName name) (hpieces : p.pieces = front ++ [name])
    {exact : Bool} (hexact : exact = true → d.Direct p front) : d.Readies exact p d' := by
  obtain ⟨hprepare, ⟨location, hreaches⟩, hstill⟩ | ⟨said, hfirst, hfails, hsaid⟩ := h.outcome
  · have hplace := place_of_prepared (hstill d' .refl)
    refine ⟨fun text => .of_eq ?_, fun d'' h'' text => .of_eq ?_, fun m hm => hplace ▸ hm⟩
    · rw [save_of_prepared hprepare, hplace]
    · rw [save_of_prepared (hstill d'' h''.any), hplace, h''.target_eq hname hpieces hreaches]
  · obtain ⟨reason, hreason⟩ := hfails d' .refl
    have hplace := (of_save_eq_error (hreason "")).2
    refine ⟨fun text => ?_, fun d'' h'' text => ?_, fun m hm => ?_⟩
    · rw [hfirst, hplace]
      exact savedAlike_error fun hexact' => Option.some.inj
        (Prod.mk.inj ((hsaid (hexact hexact') d' .refl text).symm.trans (hreason text))).2
    · obtain ⟨reason'', hreason''⟩ := hfails d'' h''.any
      rw [hreason'', hplace]
      -- Both are the reason of the first attempt.
      refine savedAlike_error fun hexact' => ?_
      have hsaid' := hsaid (hexact hexact')
      have hnow := (hsaid' d' .refl text).symm.trans (hreason text)
      have hlater := (hsaid' d'' h''.any text).symm.trans (hreason'' text)
      exact Option.some.inj ((Prod.mk.inj hlater).2.symm.trans (Prod.mk.inj hnow).2)
    · rw [hplace] at hm
      exact absurd hm (by simp)

end Disk

end GridStyle
