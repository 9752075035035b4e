import GridStyle.Proofs.Files.Finding
import GridStyle.Proofs.Files.Preparation

/-!
# Compiling Into a File

Compiling a file into another one does one of four things (`Compiling`): it is refused, or the input
is not compiled, and the disk stays as it is; or directories are made, and then the file at the
destination of the output path is written or none is.

The components of a path tell its destination (`Disk.destination_congr`), so paths that are the same
lead to one file. Different paths can also lead to one file, as `./a.json` and `a.json` do. The
input is protected from the former and not from the latter (`compileTo_input`).
-/

namespace GridStyle

open GridStyle.Path

/-! ### Destinations -/

/-- Where a component leads. -/
def Component.follow (location : List String) : Component → List String
  | .root => []
  | .here => location
  | .parent => location.dropLast
  | .name text => location ++ [text]

/-- A piece leads where its component does, and nowhere without one. -/
theorem Path.resolve_cons (first : Bool) (location : List String) (piece : String)
    (rest : List String) :
    resolve location (piece :: rest) =
      resolve ((Component.ofPiece? first piece).toList.foldl Component.follow location) rest := by
  unfold Component.ofPiece?
  split
  · rw [resolve, if_pos (by decide)]
    rfl
  · rw [resolve, if_pos (by decide)]
    cases first <;> rfl
  · rw [resolve, if_neg (by decide), if_pos rfl]
    rfl
  · next hempty hpoint hup =>
    have hidle : isIdle piece = false := by
      simp [isIdle, show piece ≠ "" from hempty, show piece ≠ "." from hpoint]
    exact resolve_name hidle hup location rest

theorem Path.resolve_eq_foldl (location pieces : List String) :
    resolve location pieces =
      (pieces.filterMap (Component.ofPiece? false)).foldl Component.follow location := by
  induction pieces generalizing location with
  | nil => rfl
  | cons piece rest ih =>
    rw [resolve_cons false, ih, List.filterMap_cons]
    cases Component.ofPiece? false piece <;> rfl

namespace Disk

/-- Where a path leads, whatever is there. -/
def destination (d : Disk) (p : Path) : List String := resolve (d.start p) p.pieces

theorem destination_eq_foldl (d : Disk) (p : Path) :
    d.destination p = p.components.foldl Component.follow d.working := by
  rw [destination, components, start]
  cases hpieces : p.pieces with
  | nil => exact absurd hpieces p.pieces_ne_nil
  | cons first rest =>
    dsimp only
    split
    · next habsolute =>
      -- The piece in front of an absolute path is empty.
      obtain ⟨_, -, heq⟩ := isAbsolute_iff.1 habsolute
      obtain rfl : first = "" := (List.cons.inj (hpieces.symm.trans heq)).1
      rw [List.foldl_cons, resolve, if_pos (by decide), resolve_eq_foldl]
      rfl
    · rw [List.foldl_append, resolve_cons true, resolve_eq_foldl]

/-- Paths that are the same have one destination. -/
theorem destination_congr {p q : Path} (h : p.same q = true) (d : Disk) :
    d.destination p = d.destination q := by
  rw [destination_eq_foldl, destination_eq_foldl, beq_iff_eq.1 h]

theorem Grown.destination {made : List String → Entry → Prop} {d d' : Disk} (h : Grown made d d')
    (p : Path) : d'.destination p = d.destination p := by
  rw [Disk.destination, Disk.destination, h.start]

theorem eq_destination {d : Disk} {p : Path} {m : List String} (h : d.locate? p = some m) :
    m = d.destination p :=
  (walk_eq_some (locate?_eq_some_iff.1 h).2.2).1

/-! ### Saving under any path -/

/-- Every path has a directory to start from. -/
def Rooted (d : Disk) : Prop := ∀ p, d.node? (d.start p) = some .directory

theorem Grown.rooted {made : List String → Entry → Prop} {d d' : Disk} (h : Grown made d d')
    (hroots : d.Rooted) : d'.Rooted := fun p => by
  rw [h.start]
  exact h.directory (hroots p)

/-- The entry is a directory. -/
def DirectoryOnly (_ : List String) (new : Entry) : Prop := new.isDirectory = true

/-- Preparing to save makes nothing but directories. -/
theorem grown_prepare {d : Disk} (hroots : d.Rooted) (p : Path) :
    Grown DirectoryOnly d (d.prepare p).1 := by
  rw [prepare]
  split
  · exact .refl
  · next above _ =>
    split
    · exact .refl
    · rw [makeDirectories]
      split
      · -- The directories above are made from the start of their path, as far as that works.
        obtain ⟨d', hgrown, houtcome⟩ := exists_making (hroots above) false above.pieces
        have hmade : (d.makeAlong false (d.start above) above.pieces).1 = d' := by
          obtain ⟨heq, -⟩ | ⟨said, reason, heq, -⟩ := houtcome <;> rw [heq]
        rw [hmade]
        exact hgrown.mono fun _ _ hnew => hnew.1
      · exact .refl

/-- Only a path with a name as its last piece has a place for a file. -/
theorem exists_name_of_target {d : Disk} {p : Path} {m : List String} (h : d.target p = .ok m) :
    ∃ front name, IsName name ∧ p.pieces = front ++ [name] := by
  rw [target] at h
  split at h
  · simp at h
  next hempty =>
  split at h
  · simp at h
  split at h
  · simp at h
  next last before hreverse =>
  have hproper : ¬ (p.endsWithSlash || last == "." || last == "..") = true := by
    intro hends
    simp only [hends, bind, Except.bind, if_true] at h
    split at h
    · simp at h
    · split at h <;> simp at h
  simp only [Bool.or_eq_true, not_or, Bool.not_eq_true, beq_eq_false_iff_ne] at hproper
  obtain ⟨⟨hslash, hpoint⟩, hup⟩ := hproper
  -- The path ends with no slash, so its last piece is not empty.
  have hlast : p.pieces.reverse.head? ≠ some "" := fun hhead => by
    rw [List.head?_reverse] at hhead
    exact absurd (endsWithSlash_of_getLast? (Bool.eq_false_iff.2 hempty) hhead)
      (Bool.eq_false_iff.1 hslash)
  obtain ⟨hne, hkept⟩ : last ≠ "" ∧ p.pieces.reverse = last :: before := by
    cases hpieces : p.pieces.reverse with
    | nil => simp [hpieces] at hreverse
    | cons first rest =>
      have hfirst : first ≠ "" := by simpa [hpieces] using hlast
      rw [hpieces, List.dropWhile_cons_of_neg (by simpa using hfirst)] at hreverse
      exact ⟨(List.cons.inj hreverse).1 ▸ hfirst, hreverse⟩
  have hpieces : p.pieces = before.reverse ++ [last] := by
    rw [← List.reverse_reverse p.pieces, hkept, List.reverse_cons]
  refine ⟨before.reverse, last, ⟨?_, hup, not_mem_of_mem_pieces (p := p) (by simp [hpieces])⟩,
    hpieces⟩
  simp [isIdle, hne, hpoint]

/-- The place for a file is the destination of its path, and there the path leads once the file is
written. -/
theorem of_target_eq_ok {d : Disk} {p : Path} {m : List String} (h : d.target p = .ok m) :
    m = d.destination p ∧ d.Takes m ∧
      ∀ text, (d.putAt (.file text) m).locate? p = some m := by
  obtain ⟨front, name, hname, hpieces⟩ := exists_name_of_target h
  have htakes := takes_of_target hname hpieces h
  obtain ⟨-, husable, location, hreaches, -, rfl⟩ := (target_eq_ok_iff hname hpieces).1 h
  have hput : ∀ text, d.Extends (d.putAt (.file text) (location ++ [name])) :=
    fun _ => htakes.grown_putAt trivial
  have hwritten : ∀ text, (d.putAt (.file text) (location ++ [name])).locate? p =
      some (location ++ [name]) := fun text => by
    refine locate?_of_reaches hname hpieces husable ((hput text).reaches hreaches) ?_
    rw [htakes.node?_putAt, if_pos rfl]
    exact Option.some_ne_none _
  -- A destination does not depend on what is there, so it may be read off once a file is.
  exact ⟨(eq_destination (hwritten none)).trans ((hput none).destination p), htakes, hwritten⟩

end Disk

/-! ### What compiling does -/

section Compiling

variable [Minifier]

/-- Compiling a file into another one comes to a disk and an error, if one occurred. -/
inductive Compiling (config : Config) (input output : Path) (d : Disk) :
    Disk × Option CompileError → Prop
  /-- The output is the path of the input. -/
  | refused (hsame : output.same input = true) :
      Compiling config input output d (d, some (.overwrite input))
  /-- The input is not compiled. -/
  | failed {error : CompileError} (hsame : output.same input = false)
      (hcompile : compileFile d config input = .error error) :
      Compiling config input output d (d, some error)
  /-- No file is written. -/
  | unwritten {d' : Disk} {text : String} {reason : DiskError} (hsame : output.same input = false)
      (hcompile : compileFile d config input = .ok text)
      (hgrown : Disk.Grown Disk.DirectoryOnly d d') :
      Compiling config input output d (d', some (.unwritable reason))
  /-- The file that the output leads to is written. -/
  | written {d' : Disk} {text : String} (hsame : output.same input = false)
      (hcompile : compileFile d config input = .ok text)
      (hgrown : Disk.Grown Disk.DirectoryOnly d d') (htakes : d'.Takes (d.destination output))
      (hlocate : (d'.putAt (.file (some text)) (d.destination output)).locate? output =
        some (d.destination output)) :
      Compiling config input output d
        (d'.putAt (.file (some text)) (d.destination output), none)

theorem compiling {d : Disk} (hroots : d.Rooted) (config : Config) (input output : Path) :
    Compiling config input output d (compileTo config input output d) := by
  rw [compileTo]
  split
  · next hsame => exact .refused hsame
  · next hsame =>
    rw [Bool.not_eq_true] at hsame
    cases hcompile : compileFile d config input with
    | error error => exact .failed hsame hcompile
    | ok text =>
      -- Directories may be made also if the result is not written then.
      have hgrown := Disk.grown_prepare hroots output
      obtain ⟨⟨d', failure⟩, hprepare⟩ : ∃ prepared, d.prepare output = prepared := ⟨_, rfl⟩
      rw [hprepare] at hgrown
      cases failure with
      | some reason =>
        simp only [Disk.save_of_unprepared hprepare]
        exact .unwritten hsame hcompile hgrown
      | none =>
        cases htarget : d'.target output with
        | error reason =>
          simp only [Disk.save_of_target_error hprepare htarget]
          exact .unwritten hsame hcompile hgrown
        | ok m =>
          obtain ⟨rfl, htakes, hlocate⟩ := Disk.of_target_eq_ok htarget
          simp only [Disk.save_of_target_ok hprepare htarget, hgrown.destination] at *
          exact .written hsame hcompile hgrown htakes (hlocate _)

/-- No input is refused by itself. -/
theorem compileFile_ne_overwrite {d : Disk} {config : Config} {input other : Path} :
    compileFile d config input ≠ .error (.overwrite other) := by
  rw [compileFile]
  split
  · simp
  · rw [compileText]
    split
    · simp
    · dsimp only
      split
      · next failure _ => cases failure <;> simp [CompileError.ofFailure]
      · simp

/-! ### The input -/

/-- What can be compiled can be read. -/
theorem read?_ne_none {d : Disk} {config : Config} {input : Path} {text : String}
    (h : compileFile d config input = .ok text) : d.read? input ≠ none := by
  rw [compileFile] at h
  split at h
  · simp at h
  · next source hread => rw [Disk.read_eq_ok_iff.1 hread]; exact Option.some_ne_none source

/-- What can be compiled is a file, to which the path of the input leads. -/
theorem locate?_of_compileFile {d : Disk} {config : Config} {input : Path} {text : String}
    (h : compileFile d config input = .ok text) :
    d.locate? input = some (d.destination input) := by
  have hread := read?_ne_none h
  rw [Disk.read?_eq] at hread
  cases hlocate : d.locate? input with
  | none => simp [hlocate] at hread
  | some m => rw [Disk.eq_destination hlocate]

/-- Compiling a file is refused if and only if the output is written as the same path as the input,
and then both lead to one file, as far as they lead anywhere. The input keeps its text unless a
result is written and both paths lead to one file; in that case the two are different paths, and the
result replaces the input. -/
theorem compileTo_input {d : Disk} (htree : d.IsFileTree) (config : Config) (input output : Path) :
    let after := compileTo config input output d
    (after.2 = some (.overwrite input) ↔ output.same input = true) ∧
    (output.same input = true → ∀ m m', d.locate? output = some m → d.locate? input = some m' →
      m = m') ∧
    (after.2 ≠ none ∨ after.1.locate? output ≠ after.1.locate? input →
      after.1.read? input = d.read? input) ∧
    (after.2 = none → after.1.locate? output = after.1.locate? input →
      output.same input = false ∧ ∃ text, compileFile d config input = .ok text ∧
        after.1.read? input = some text) := by
  have hone : output.same input = true → ∀ m m', d.locate? output = some m →
      d.locate? input = some m' → m = m' := fun hsame m m' hm hm' => by
    rw [Disk.eq_destination hm, Disk.eq_destination hm', Disk.destination_congr hsame]
  have hfails {error : CompileError} {p : Prop} (hnone : some error = none) : p :=
    absurd hnone (Option.some_ne_none error)
  obtain hcompiling := compiling htree.start config input output
  generalize compileTo config input output d = after at hcompiling
  dsimp only
  cases hcompiling with
  | refused hsame => exact ⟨by simp [hsame], hone, fun _ => rfl, hfails⟩
  | failed hsame hcompile =>
    refine ⟨iff_of_false ?_ (by simp [hsame]), hone, fun _ => rfl, hfails⟩
    rintro ⟨⟩
    exact compileFile_ne_overwrite hcompile
  | unwritten hsame hcompile hgrown =>
    refine ⟨iff_of_false (by simp) (by simp [hsame]), hone, fun _ => ?_, hfails⟩
    rw [Disk.read?, hgrown.read_eq (locate?_of_compileFile hcompile) fun _ hnew => hnew, Disk.read?]
  | @written d' text hsame hcompile hgrown htakes hlocate =>
    have hput : Disk.Grown (fun m new => Disk.DirectoryOnly m new ∨ m = d.destination output) d
        (d'.putAt (.file (some text)) (d.destination output)) :=
      (hgrown.mono fun _ _ => .inl).trans (htakes.grown_putAt (.inr rfl))
    -- The input has been there before, so its path leads to the same place after.
    have hinput := locate?_of_compileFile hcompile
    simp only [hlocate, hput.locate? hinput, ne_eq, Option.some.injEq]
    refine ⟨by simp [hsame], hone, fun hdiffer => ?_, fun _ hequal => ?_⟩
    · rw [Disk.read?, Disk.read?]
      refine congrArg Except.toOption (hput.read_eq hinput fun new hnew => ?_)
      exact hnew.resolve_right fun heq => hdiffer.elim (· trivial) (· heq.symm)
    · refine ⟨hsame, text, hcompile, ?_⟩
      rw [Disk.read?_eq, hput.locate? hinput, Option.bind_some, htakes.node?_putAt,
        if_pos hequal.symm]
      rfl

end Compiling

/-- One token file. -/
def singleSource : Disk where
  root := .directory [("a.json", .file (some "[]"))]

open scoped Minifier

/-- The file is not compiled onto its own path and keeps its text beside another result, but with a
point in front of the path the result replaces it. -/
theorem compileTo_input_singleSource :
    (compileTo {} ⟨"a.json"⟩ ⟨"a.json"⟩ singleSource).2 = some (.overwrite ⟨"a.json"⟩) ∧
    (compileTo {} ⟨"a.json"⟩ ⟨"a.css"⟩ singleSource).1.read? ⟨"a.json"⟩ =
      singleSource.read? ⟨"a.json"⟩ ∧
    ∃ text, compileFile singleSource {} ⟨"a.json"⟩ = .ok text ∧
      (compileTo {} ⟨"a.json"⟩ ⟨"./a.json"⟩ singleSource).1.read? ⟨"a.json"⟩ = some text := by
  have htree : singleSource.IsFileTree := by decide +kernel
  refine ⟨(compileTo_input htree {} ⟨"a.json"⟩ ⟨"a.json"⟩).1.2 (by decide),
    (compileTo_input htree {} ⟨"a.json"⟩ ⟨"a.css"⟩).2.2.1 (.inr (by decide +kernel)), ?_⟩
  exact ((compileTo_input htree {} ⟨"a.json"⟩ ⟨"./a.json"⟩).2.2.2 (by decide +kernel)
    (by decide +kernel)).2

/-- Both paths lead to the input, and compiling it replaces its text without an error. -/
theorem singleSource_replaced :
    singleSource.IsFileTree ∧
      singleSource.locate? ⟨"./a.json"⟩ = singleSource.locate? ⟨"a.json"⟩ ∧
      (compileTo {} ⟨"a.json"⟩ ⟨"./a.json"⟩ singleSource).2 = none ∧
      (compileTo {} ⟨"a.json"⟩ ⟨"./a.json"⟩ singleSource).1.read? ⟨"a.json"⟩ ≠
        singleSource.read? ⟨"a.json"⟩ := by
  refine ⟨?_, ?_, ?_, ?_⟩ <;> decide +kernel

end GridStyle
