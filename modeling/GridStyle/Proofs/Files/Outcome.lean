import GridStyle.Proofs.Files.OutputPath
import GridStyle.Proofs.Files.Writing

/-!
# What Becomes of an Input

Compiling an input of a pass comes to an `Outcome`: it fails with an error, or its result is written
to a location. The outcome is settled by the first attempt (`PassOptions.exists_settles`): on every
disk that the pass can make of the one it left, compiling the input comes to the same outcome again,
and nothing but the file of the result is written.

The reason for which a result cannot be written is settled as well, unless the output directory
leads up by a double point. The errors of outcomes are taken as far as they count
(`PassOptions.seen`).
-/

namespace GridStyle

open GridStyle.Path

/-! ### Inputs on growing disks -/

/-- The disk has an input that a search found, and every path has a directory to start from. -/
structure Disk.Provides (d : Disk) (input : Path) : Prop where
  token : isTokenFile input = true
  found : input.isUsable = true → d.pathExists input = true
  start : ∀ p, d.node? (d.start p) = some .directory

theorem Disk.provides_of_mem {d : Disk} (htree : d.IsFileTree) {o : PassOptions} {input : Path}
    (h : input ∈ o.inputs d) : d.Provides input := by
  obtain ⟨htoken, hfound⟩ := of_mem_findTokenFiles htree (List.mem_filter.1 h).1
  exact ⟨htoken, hfound, htree.start⟩

namespace PassOptions

/-- What a pass puts on a disk: directories under the names of the output directory, and files under
names of no token files. -/
def Makes (o : PassOptions) (m : List String) (new : Entry) : Prop :=
  (∃ output, o.output = some output ∧ Disk.DirectoryIn output.pieces m new) ∨
    (new.isDirectory = false ∧
      ∃ name, m.getLast? = some name ∧ IsName name ∧ isTokenFile ⟨name⟩ = false)

end PassOptions

namespace Disk.Provides

variable {d d' : Disk} {input : Path}

theorem grown {made : List String → Entry → Prop} (h : d.Provides input)
    (hgrown : Grown made d d') : d'.Provides input :=
  ⟨h.token, fun husable => hgrown.pathExists (h.found husable), fun p => by
    rw [hgrown.start]
    exact hgrown.directory (h.start p)⟩

theorem endsIn (h : d.Provides input) : ∃ front name, input.EndsIn front name := by
  have htoken := h.token
  rw [isTokenFile, Bool.and_eq_true, Option.any_eq_true] at htoken
  obtain ⟨-, extension, hextension, -⟩ := htoken
  obtain ⟨name, hname, -⟩ := Option.bind_eq_some_iff.1 hextension
  obtain ⟨front, hends⟩ := fileName?_eq_some_iff.1 hname
  exact ⟨front, name, hends⟩

end Disk.Provides

/-- What is found under a path with a name at its end has the name, in the directory of the path. -/
theorem Disk.reaches_of_locate? {d : Disk} {p : Path} {front m : List String} {name : String}
    (hends : p.EndsIn front name) (hm : d.locate? p = some m) :
    ∃ location, d.Reaches p front location ∧ m = location ++ [name] := by
  obtain ⟨hname, idle, hidle, hpieces⟩ := hends
  have hwalk := (locate?_eq_some_iff.1 hm).2.2
  rw [hpieces, walk_append, Option.bind_eq_some_iff] at hwalk
  obtain ⟨location, hfront, hrest⟩ := hwalk
  obtain ⟨rfl, -⟩ := walk_eq_some hrest
  refine ⟨location, ⟨hfront, directory_of_walk_cons hrest⟩, ?_⟩
  rw [resolve_name hname.notIdle hname.notUp, resolve_idle hidle]

/-- A path that can be read leads to the name at its end, in its directory. -/
theorem Disk.reaches_of_read? {d : Disk} {p : Path} {front : List String} {name : String}
    (hends : p.EndsIn front name) (hread : d.read? p ≠ none) :
    ∃ location, d.Reaches p front location ∧ d.locate? p = some (location ++ [name]) := by
  rw [read?_eq] at hread
  cases hlocate : d.locate? p with
  | none => exact absurd (by rw [hlocate]; rfl) hread
  | some m =>
    obtain ⟨location, hreaches, rfl⟩ := reaches_of_locate? hends hlocate
    exact ⟨location, hreaches, rfl⟩

namespace PassOptions

variable {o : PassOptions} {d d' : Disk} {input : Path}

/-- A pass leaves the inputs with their texts. -/
theorem read_grown (hinput : d.Provides input) (h : Disk.Grown o.Makes d d') :
    d'.read input = d.read input := by
  by_cases husable : input.isUsable = true
  · obtain ⟨m, hm⟩ := Disk.pathExists_iff.1 (hinput.found husable)
    obtain ⟨front, name, hends⟩ := hinput.endsIn
    obtain ⟨location, -, rfl⟩ := Disk.reaches_of_locate? hends hm
    refine h.read_eq hm ?_
    rintro new (⟨output, -, hdirectory⟩ | ⟨-, name', hlast, -, htoken⟩)
    · exact hdirectory.1
    · -- The input has the name of a token file, and no result has.
      rw [List.getLast?_concat, Option.some.injEq] at hlast
      subst hlast
      have htoken' := hinput.token
      rw [isTokenFile_of_endsIn hends, htoken] at htoken'
      exact absurd htoken' Bool.false_ne_true
  · -- The path is refused for its text alone.
    rw [Disk.read_eq, Disk.read_eq, d'.locate_of_not_usable husable, d.locate_of_not_usable husable]
    rfl

theorem compileFile_grown [Minifier] (hinput : d.Provides input) (h : Disk.Grown o.Makes d d') :
    compileFile d' o.config input = compileFile d o.config input := by
  rw [compileFile, compileFile, read_grown hinput h]

/-- No piece of the output directory leads up. -/
def outputDescends (o : PassOptions) : Bool :=
  o.output.all fun output => !output.pieces.contains ".."

/-- On the way to the result of an input that can be read only directories of the output directory
are made, and the way leads up only if the output directory does. -/
theorem exists_pieces_target (hinput : d.Provides input) (hread : d.read? input ≠ none)
    (houtput : ∀ output, o.output = some output → output.isEmpty = false) :
    ∃ front, (o.target input).pieces = front ++ [o.resultOf input] ∧
      (∀ m new, (∀ location, ¬ d.Reaches (o.target input) front location) ∧
        Disk.DirectoryIn front m new → o.Makes m new) ∧
      (o.outputDescends = true → d.Direct (o.target input) front) := by
  obtain ⟨front, name, hends⟩ := hinput.endsIn
  cases hsome : o.output with
  | none =>
    obtain ⟨front', hpieces, hreaches⟩ := exists_pieces_target_of_none hsome hends
    obtain ⟨location, hdirectory, -⟩ := Disk.reaches_of_read? hends hread
    have hthere := hreaches d location hdirectory
    exact ⟨front', hpieces, fun m new hmade => absurd hthere (hmade.1 location),
      fun _ => .inr ⟨location, hthere⟩⟩
  | some output =>
    obtain ⟨front', hpieces, hfront⟩ :=
      exists_pieces_target_of_some hsome (houtput output hsome) hends
    refine ⟨front', hpieces, fun m new hmade => .inl ⟨output, hsome, hmade.2.1, ?_⟩,
      fun hdescends => .inl fun hup => ?_⟩
    · exact hmade.2.2.imp fun piece hpiece => ⟨hfront piece hpiece.1 hpiece.2.1, hpiece.2⟩
    · simp [outputDescends, hsome, hfront ".." hup (by decide)] at hdescends

end PassOptions

/-! ### Errors as far as they count -/

namespace CompileError

/-- The error as far as it counts: the reason for which a result cannot be written may not. -/
def upTo (exact : Bool) : CompileError → CompileError
  | unwritable error => unwritable (error.upTo exact)
  | error => error

@[simp] theorem fault?_upTo (exact : Bool) (error : CompileError) :
    (error.upTo exact).fault? = error.fault? := by
  cases error <;> rfl

@[simp] theorem upTo_true (error : CompileError) : error.upTo true = error := by
  cases error <;> rfl

/-- What counts less counts less than what counts more. -/
theorem upTo_false_upTo (exact : Bool) (error : CompileError) :
    (error.upTo exact).upTo false = error.upTo false := by
  cases error <;> rfl

end CompileError

/-- The error of an input as far as it counts in a pass. -/
def PassOptions.seen (o : PassOptions) : CompileError → CompileError :=
  CompileError.upTo o.outputDescends

/-! ### Outcomes -/

/-- What becomes of an input. -/
inductive Outcome where
  /-- It is not compiled. -/
  | failed (error : CompileError)
  /-- Its result is written to a location. -/
  | written (location : List String) (text : String)

namespace Outcome

/-- What went wrong. -/
def error? : Outcome → Option CompileError
  | failed error => some error
  | written _ _ => none

/-- The disk with the result. -/
def write (outcome : Outcome) (d : Disk) : Disk :=
  match outcome with
  | failed _ => d
  | written m text => d.putAt (.file (some text)) m

end Outcome

namespace PassOptions

variable [Minifier]

/-- An input comes to an outcome on a disk. What is written is the result of compiling the input,
and its path leads to it. -/
structure ComesTo (o : PassOptions) (d : Disk) (input : Path) (outcome : Outcome) : Prop where
  disk_eq : (compileTo o.config input (o.target input) d).1 = outcome.write d
  error_eq : (compileTo o.config input (o.target input) d).2.map o.seen = outcome.error?
  written : ∀ m text, outcome = .written m text →
    d.HoldsFile m ∧ o.Makes m (.file (some text)) ∧ compileFile d o.config input = .ok text ∧
      d.locate? (o.target input) = some m

/-- An input comes to an outcome on all disks that the pass can make of this one. -/
def Settled (o : PassOptions) (d : Disk) (input : Path) (outcome : Outcome) : Prop :=
  ∀ d', Disk.Grown o.Makes d d' → o.ComesTo d' input outcome

theorem Settled.grown {o : PassOptions} {d d' : Disk} {input : Path} {outcome : Outcome}
    (h : o.Settled d input outcome) (hgrown : Disk.Grown o.Makes d d') :
    o.Settled d' input outcome :=
  fun d'' h'' => h d'' (hgrown.trans h'')

/-- The first attempt to compile an input settles its outcome, and writes no file but the result. -/
structure Settles (o : PassOptions) (d : Disk) (input : Path) (outcome : Outcome) (d' : Disk) :
    Prop where
  disk_eq : (compileTo o.config input (o.target input) d).1 = d'
  error_eq : (compileTo o.config input (o.target input) d).2.map o.seen = outcome.error?
  grown : Disk.Grown (fun m new => o.Makes m new ∧
    (new.isDirectory = true ∨ ∃ text, outcome = .written m text)) d d'
  settled : o.Settled d' input outcome
  written : ∀ m text, outcome = .written m text → d'.node? m = some (.file (some text))

theorem settles_failed {o : PassOptions} {d : Disk} {input : Path} {error : CompileError}
    (h : ∀ d', Disk.Grown o.Makes d d' →
      compileTo o.config input (o.target input) d' = (d', some error)) :
    o.Settles d input (.failed (o.seen error)) d := by
  refine ⟨by rw [h d .refl], by rw [h d .refl]; rfl, .refl, fun d' h' => ?_, nofun⟩
  exact ⟨by rw [h d' h']; rfl, by rw [h d' h']; rfl, nofun⟩

section Settling

variable {o : PassOptions} {d : Disk} {input : Path} {text : String} (hinput : d.Provides input)
include hinput

/-- The text of an input is saved on every disk that the pass can make. -/
theorem compileTo_grown (hsame : ¬ (o.target input).same input = true)
    (hcompile : compileFile d o.config input = .ok text) {d' : Disk}
    (h : Disk.Grown o.Makes d d') :
    compileTo o.config input (o.target input) d' =
      ((d'.save (o.target input) text).1, (d'.save (o.target input) text).2.map .unwritable) := by
  simp only [compileTo, if_neg hsame, compileFile_grown hinput h, hcompile]

section Saved

variable (hsame : ¬ (o.target input).same input = true)
  (hcompile : compileFile d o.config input = .ok text) {d₁ : Disk}
  (hgrown : Disk.Grown (fun m new => o.Makes m new ∧ new.isDirectory = true) d d₁)
include hsame hcompile hgrown

/-- The text is written, and every later attempt writes it once more. -/
theorem settles_written {location : List String} {name : String} (hname : IsName name)
    (htoken : isTokenFile ⟨name⟩ = false) (hfits : d₁.Fits location name (.file (some text)))
    (hsave : d.save (o.target input) text =
      (d₁.putAt (.file (some text)) (location ++ [name]), none))
    (hopens : (d₁.putAt (.file (some text)) (location ++ [name])).Opens (o.target input)
      (location ++ [name])) :
    o.Settles d input (.written (location ++ [name]) text)
      (d₁.putAt (.file (some text)) (location ++ [name])) := by
  have hmade : o.Makes (location ++ [name]) (.file (some text)) :=
    .inr ⟨rfl, name, List.getLast?_concat, hname, htoken⟩
  have hput : Disk.Grown o.Makes d (d₁.putAt (.file (some text)) (location ++ [name])) :=
    (hgrown.mono fun _ _ => And.left).put hfits hmade
  have hcompileTo := compileTo_grown hinput hsame hcompile .refl
  rw [hsave] at hcompileTo
  refine ⟨by rw [hcompileTo], by rw [hcompileTo]; rfl, ?_, fun d' h' => ?_, ?_⟩
  · exact (hgrown.mono fun _ _ hnew => ⟨hnew.1, .inl hnew.2⟩).put hfits ⟨hmade, .inr ⟨text, rfl⟩⟩
  · have hagain := compileTo_grown hinput hsame hcompile (hput.trans h')
    obtain ⟨hlocate, hfile, hsave'⟩ := hopens d' h'.any
    rw [hsave' text] at hagain
    refine ⟨by rw [hagain]; rfl, by rw [hagain]; rfl, ?_⟩
    rintro _ _ ⟨⟩
    exact ⟨⟨location, _, rfl, hfits.short, hfile⟩, hmade,
      (compileFile_grown hinput (hput.trans h')).trans hcompile, hlocate⟩
  · rintro _ _ ⟨⟩
    rw [hfits.node?_putAt, if_pos rfl]
    rfl

/-- The text is not written, now or later. A reason that counts is that of the first attempt. -/
theorem settles_unwritten {said : DiskError}
    (hfirst : d.save (o.target input) text = (d₁, some said)) (hfails : d₁.Fails (o.target input))
    (hsaid : o.outputDescends = true → d₁.FailsWith (o.target input) said) :
    o.Settles d input (.failed (o.seen (.unwritable said))) d₁ := by
  have hmade : Disk.Grown o.Makes d d₁ := hgrown.mono fun _ _ => And.left
  have hcompileTo := compileTo_grown hinput hsame hcompile .refl
  rw [hfirst] at hcompileTo
  refine ⟨by rw [hcompileTo], by rw [hcompileTo]; rfl, ?_, fun d' h' => ?_, nofun⟩
  · exact hgrown.mono fun _ _ hnew => ⟨hnew.1, .inl hnew.2⟩
  · obtain ⟨reason, hreason⟩ := hfails d' h'.any
    have hagain := compileTo_grown hinput hsame hcompile (hmade.trans h')
    rw [hreason] at hagain
    refine ⟨by rw [hagain]; rfl, ?_, nofun⟩
    rw [hagain]
    refine congrArg some ?_
    cases hexact : o.outputDescends with
    | false =>
      simp only [seen, hexact, CompileError.upTo, DiskError.upTo, Bool.false_eq_true, if_false]
    | true =>
      have hboth := (hreason text).symm.trans (hsaid hexact d' h'.any text)
      rw [Option.some.inj (Prod.mk.inj hboth).2]

end Saved

variable (houtput : ∀ output, o.output = some output → output.isEmpty = false)
include houtput

/-- The first attempt to save the text settles the outcome. -/
theorem exists_settles_of_ok (hsame : ¬ (o.target input).same input = true)
    (hcompile : compileFile d o.config input = .ok text) :
    ∃ outcome d', o.Settles d input outcome d' := by
  obtain ⟨_, _, hends⟩ := hinput.endsIn
  have hname := isName_resultOf o hends
  have hread := read?_ne_none hcompile
  obtain ⟨front, hpieces, hmakes, hdirect⟩ := exists_pieces_target hinput hread houtput
  obtain ⟨d₁, hgrown, hcases⟩ := Disk.save_cases hname hpieces (hinput.start _)
  have hmade : Disk.Grown (fun m new => o.Makes m new ∧ new.isDirectory = true) d d₁ :=
    hgrown.mono fun m new hnew => ⟨hmakes m new hnew, hnew.2.1⟩
  obtain ⟨location, hwrite⟩ | ⟨said, hfirst, hfails, hsaid⟩ := hcases
  · obtain ⟨hfits, hsave, hopens⟩ := hwrite text
    exact ⟨_, _, settles_written hinput hsame hcompile hmade hname (isTokenFile_resultOf o hends)
      hfits hsave hopens⟩
  · exact ⟨_, _, settles_unwritten hinput hsame hcompile hmade (hfirst text) hfails
      fun hdescends => hsaid (hdirect hdescends)⟩

/-- Every input comes to an outcome, which is settled. -/
theorem exists_settles : ∃ outcome d', o.Settles d input outcome d' := by
  by_cases hsame : (o.target input).same input = true
  · exact ⟨_, d, settles_failed fun d' _ => by rw [compileTo, if_pos hsame]⟩
  · cases hcompile : compileFile d o.config input with
    | error error =>
      refine ⟨.failed (o.seen error), d, settles_failed fun d' h' => ?_⟩
      rw [compileTo, if_neg hsame, compileFile_grown hinput h', hcompile]
    | ok text => exact exists_settles_of_ok hinput houtput hsame hcompile

end Settling

end PassOptions

end GridStyle
