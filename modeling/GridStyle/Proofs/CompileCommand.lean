import GridStyle.Command.Run
import GridStyle.Proofs.Files.Writing

/-!
# The Compile Command

The command changes a disk only by the files that it compiles. What one file changes
(`Compiling.changes`) is due to a text that was compiled from it, and a file that changes is the one
to which its output path leads. The same is true of many files in any order
(`compileFiles_onlyResults`), where every file is compiled on the disk that the files before it
leave. A fault leaves the files behind it.

All checks of the command come before the first file, so a request that is not carried out leaves
the disk alone (`compile_touches`).
-/

namespace GridStyle

/-! ### Requests -/

namespace Command

/-- Every output is a directory, or there is one file at most. -/
def FitsOutput (d : Disk) (output : Option Path) (files : List Path) : Prop :=
  files.length ≤ 1 ∨ ∀ o ∈ output, namesDirectory d o = true

theorem namesDirectory_grown {d d' : Disk} (h : d.Extends d') {o : Path}
    (ho : namesDirectory d o = true) : namesDirectory d' o = true := by
  rw [namesDirectory, Bool.or_eq_true] at ho ⊢
  exact ho.imp_right h.isDirectory

theorem FitsOutput.tail {d d' : Disk} {output : Option Path} {input : Path} {rest : List Path}
    (hfits : FitsOutput d output (input :: rest)) (h : d.Extends d') :
    FitsOutput d' output rest := by
  obtain hshort | hnames := hfits
  · exact .inl (Nat.le_of_succ_le hshort)
  · exact .inr fun o ho => namesDirectory_grown h (hnames o ho)

theorem FitsOutput.perm {d : Disk} {output : Option Path} {files order : List Path}
    (hfits : FitsOutput d output files) (horder : order.Perm files) :
    FitsOutput d output order :=
  hfits.imp_left horder.length_eq.trans_le

/-- The place of a result does not change with the disk. -/
theorem outputPath_grown {d d' : Disk} (h : d.Extends d') {output : Option Path}
    (houtput : ∀ o ∈ output, namesDirectory d o = true) (input : Path) (extension : String) :
    outputPath d' input output extension = outputPath d input output extension := by
  cases output with
  | none => rfl
  | some o =>
    have hnames := houtput o rfl
    have hnames' := namesDirectory_grown h hnames
    simp only [outputPath, hnames, hnames']

/-- The files to compile are known if and only if every input exists. -/
theorem gather_eq_none_iff {d : Disk} {inputs : List Path} :
    (gather d inputs).2 = none ↔ ∃ input ∈ inputs, d.pathExists input = false := by
  induction inputs with
  | nil => simp [gather]
  | cons input rest ih =>
    rw [gather, List.exists_mem_cons_iff]
    split
    · next hdirectory =>
      have hexists : d.pathExists input = true := by
        obtain ⟨m, hm, -⟩ := Disk.isDirectory_iff.1 hdirectory
        exact Disk.pathExists_iff.2 ⟨m, hm⟩
      simp [hexists, ih]
    · split
      · next hexists => simp [hexists, ih]
      · next hmissing => simp [Bool.eq_false_iff.2 hmissing]

/-- What is compiled is printed: a single input that is no directory, without an output. -/
def CompileRequest.prints (r : CompileRequest) (d : Disk) : Bool :=
  match r.output, r.inputs with
  | none, [input] => !d.isDirectory input
  | _, _ => false

theorem isEmpty_failureNotices_iff {results : List FileResult} :
    (failureNotices results).isEmpty = true ↔ ∀ result ∈ results, result.error = none := by
  rw [failureNotices]
  split
  · next hempty =>
    rw [List.isEmpty_iff, List.filterMap_eq_nil_iff] at hempty
    exact iff_of_true rfl fun result hmem => Option.map_eq_none_iff.1 (hempty result hmem)
  · next hsome =>
    refine iff_of_false (by simp) fun hnone => hsome ?_
    rw [List.isEmpty_iff, List.filterMap_eq_nil_iff]
    exact fun result hmem => Option.map_eq_none_iff.2 (hnone result hmem)

end Command

section Compiling

variable [Minifier]

/-! ### One file -/

omit [Minifier] in
/-- Where only directories are made, what is new is a directory. -/
theorem Disk.Grown.eq_or_directory {d d' : Disk} (h : Disk.Grown Disk.DirectoryOnly d d')
    {m : List String} {node : Entry.Node} (hnode : d'.node? m = some node) :
    d.node? m = some node ∨ node = .directory := by
  induction h with
  | refl => exact .inl hnode
  | put _ hfits hnew ih =>
    rw [hfits.node?_putAt] at hnode
    split at hnode
    · rw [Option.some.injEq] at hnode
      exact .inr (hnode ▸ Entry.node_eq_directory_iff.2 hnew)
    · exact ih hnode

namespace Compiling

variable {config : Config} {input output : Path} {d : Disk} {after : Disk × Option CompileError}

theorem grown (h : Compiling config input output d after) : d.Extends after.1 := by
  cases h with
  | refused => exact .refl
  | failed => exact .refl
  | unwritten _ _ hgrown => exact hgrown.any
  | written _ _ hgrown htakes => exact hgrown.any.trans (htakes.grown_putAt trivial)

/-- What is new on the disk is there because the input was compiled. It is a directory, or the file
of the result, to which the output path leads. -/
theorem changes (h : Compiling config input output d after) {m : List String} {node : Entry.Node}
    (hnode : after.1.node? m = some node) (hnew : d.node? m ≠ some node) :
    ∃ text, compileFile d config input = .ok text ∧ (node = .directory ∨
      node = .file (some text) ∧ after.2 = none ∧ after.1.locate? output = some m) := by
  cases h with
  | refused => exact absurd hnode hnew
  | failed => exact absurd hnode hnew
  | unwritten _ hcompile hgrown =>
    exact ⟨_, hcompile, .inl ((hgrown.eq_or_directory hnode).resolve_left hnew)⟩
  | written _ hcompile hgrown htakes hlocate =>
    refine ⟨_, hcompile, ?_⟩
    dsimp only at hnode
    rw [htakes.node?_putAt] at hnode
    split at hnode
    · next heq =>
      subst heq
      exact .inr ⟨(Option.some.inj hnode).symm, rfl, hlocate⟩
    · exact .inl ((hgrown.eq_or_directory hnode).resolve_left hnew)

end Compiling

namespace Command

/-! ### Many files -/

/-- All that is new on a disk is there because of files that were compiled, on disks on the way to
it. A new or changed file holds the text that was compiled from one of them without an error, whose
output path leads there. -/
def OnlyResults (config : Config) (d d' : Disk) (results : List FileResult) : Prop :=
  ∀ m node, d'.node? m = some node → d.node? m ≠ some node →
    ∃ result ∈ results, ∃ before text, d.Extends before ∧ before.Extends d' ∧
      compileFile before config result.input = .ok text ∧ (node = .directory ∨
        node = .file (some text) ∧ result.error = none ∧ d'.locate? result.output = some m)

/-- One more file is compiled before others. -/
theorem OnlyResults.cons {config : Config} {d d₁ d' : Disk} {input output : Path}
    {error : Option CompileError} {results : List FileResult}
    (hfirst : Compiling config input output d (d₁, error)) (hextends : d₁.Extends d')
    (hrest : OnlyResults config d₁ d' results) :
    OnlyResults config d d' (⟨input, output, error⟩ :: results) := by
  intro m node hnode hnew
  have hstep : d.Extends d₁ := hfirst.grown
  by_cases hthere : d₁.node? m = some node
  · -- It is due to the first file, and no later file replaces it.
    obtain ⟨text, hcompile, hkind⟩ := hfirst.changes hthere hnew
    refine ⟨_, List.mem_cons_self, d, text, .refl, hstep.trans hextends, hcompile, ?_⟩
    exact hkind.imp_right fun ⟨hfile, hok, hlocate⟩ => ⟨hfile, hok, hextends.locate? hlocate⟩
  · obtain ⟨result, hmem, before, text, hbefore, hafter, hcompile⟩ := hrest m node hnode hthere
    exact ⟨result, List.mem_cons_of_mem _ hmem, before, text, hstep.trans hbefore, hafter, hcompile⟩

/-- What compiling files one after the other did. -/
structure Compiled (config : Config) (output : Option Path) (d : Disk) (files : List Path)
    (after : Disk × List FileResult) : Prop where
  grown : d.Extends after.1
  inputs : after.2.map FileResult.input <+: files
  inputs_eq : (∀ result ∈ after.2, result.fault? = none) → after.2.map FileResult.input = files
  outputs : ∀ result ∈ after.2,
    result.output = outputPath d result.input output config.format.extension
  onlyResults : OnlyResults config d after.1 after.2

theorem compiled_compileFiles {d : Disk} (hroots : d.Rooted) (config : Config)
    {output : Option Path} {files : List Path} (hfits : FitsOutput d output files) :
    Compiled config output d files (compileFiles config output files d) := by
  induction files generalizing d with
  | nil =>
    exact ⟨.refl, List.prefix_rfl, fun _ => rfl, by simp [compileFiles],
      fun m node hnode hnew => absurd hnode hnew⟩
  | cons input rest ih =>
    have hfirst := compiling hroots config input
      (outputPath d input output config.format.extension)
    rw [compileFiles]
    dsimp only
    generalize compileTo config input (outputPath d input output config.format.extension) d = step
      at hfirst
    obtain ⟨d₁, error⟩ := step
    have hstep : d.Extends d₁ := hfirst.grown
    split
    · next hfault =>
      -- The program ends here.
      refine ⟨hstep, (List.prefix_cons_inj input).2 List.nil_prefix, fun hnone => ?_,
        List.forall_mem_singleton.2 rfl, .cons hfirst .refl fun m node hnode hnew =>
          absurd hnode hnew⟩
      rw [List.forall_mem_singleton.1 hnone] at hfault
      exact absurd hfault (by decide)
    · have hrest := ih (hstep.rooted hroots) (hfits.tail hstep)
      refine ⟨hstep.trans hrest.grown, (List.prefix_cons_inj input).2 hrest.inputs,
        fun hnone => congrArg (input :: ·) (hrest.inputs_eq (List.forall_mem_cons.1 hnone).2),
        List.forall_mem_cons.2 ⟨rfl, fun result hmem => ?_⟩,
        .cons hfirst hrest.grown hrest.onlyResults⟩
      -- The later outputs are found on the disk that the first file leaves.
      rw [hrest.outputs result hmem]
      obtain hshort | hnames := hfits
      · -- No file is left.
        obtain rfl : rest = [] := by simpa using hshort
        exact absurd hmem (by simp [compileFiles])
      · exact outputPath_grown hstep hnames _ _

/-! ### What is asked for -/

/-- What the command comes to. -/
inductive Compiles (env : Environment) (r : CompileRequest) (d : Disk) : Outcome → Prop
  /-- The request is refused. -/
  | declined {after : Outcome} (hdisk : after.disk = d) (hcode : after.code = refused) :
      Compiles env r d after
  /-- The settings cannot be loaded. -/
  | unloaded {after : Outcome} {error : ConfigError} (hdisk : after.disk = d)
      (hcode : after.code = failure) (hload : Config.load env d r.config = .error error) :
      Compiles env r d after
  /-- An input is missing. -/
  | missing {after : Outcome} (hdisk : after.disk = d) (hcode : after.code = failure)
      (hgather : (gather d r.inputs).2 = none) : Compiles env r d after
  /-- There are no files to compile. -/
  | nothing {after : Outcome} (hdisk : after.disk = d) (hcode : after.code = failure)
      (hgather : (gather d r.inputs).2 = some []) : Compiles env r d after
  /-- One file is compiled and printed. -/
  | printed {loaded : Config} {input : Path} {notices : List Notice}
      (hload : Config.load env d r.config = .ok loaded)
      (hgather : (gather d r.inputs).2 = some [input]) (hprints : r.prints d = true) :
      Compiles env r d (printFile (loaded.override r.overrides) input notices d)
  /-- All files are compiled. -/
  | written {after : Outcome} {loaded : Config} {first : Path} {files : List Path}
      (hload : Config.load env d r.config = .ok loaded)
      (hgather : (gather d r.inputs).2 = some (first :: files)) (hprints : r.prints d = false)
      (hfits : FitsOutput d r.output (first :: files))
      (hdisk : after.disk =
        (compileFiles (loaded.override r.overrides) r.output (first :: files) d).1)
      (hcode : after.code ≠ refused)
      (hsuccess : after.code = success ↔ ∀ result ∈ (compileFiles (loaded.override r.overrides)
        r.output (first :: files) d).2, result.error = none) : Compiles env r d after

section Compiles

variable {env : Environment} {r : CompileRequest} {d : Disk} {loaded : Config} {first : Path}
  {files : List Path} (hload : Config.load env d r.config = .ok loaded)
include hload

omit hload in
/-- Files are compiled with success if all of them are. A fault is none. -/
theorem code_of_results {config : Config} {output : Option Path}
    (hfits : ¬ (1 < files.length && output.any fun o => !namesDirectory d o) = true)
    (notices : List Notice) :
    (writeFiles config output files notices d).disk = (compileFiles config output files d).1 ∧
    (writeFiles config output files notices d).code ≠ refused ∧
    ((writeFiles config output files notices d).code = success ↔
      ∀ result ∈ (compileFiles config output files d).2, result.error = none) := by
  simp only [writeFiles, if_neg hfits]
  generalize compileFiles config output files d = after
  obtain ⟨d', results⟩ := after
  cases hfault : results.findSome? FileResult.fault? with
  | some fault =>
    obtain ⟨result, hmem, hresult⟩ := List.exists_of_findSome?_eq_some hfault
    have hcrashed : crashed ≠ refused ∧ crashed ≠ success := by decide
    refine ⟨rfl, hcrashed.1, iff_of_false hcrashed.2 fun hnone => ?_⟩
    rw [FileResult.fault?, hnone result hmem] at hresult
    exact absurd hresult nofun
  | none =>
    refine ⟨rfl, ?_, ?_⟩
    · dsimp only
      split <;> decide
    · rw [← isEmpty_failureNotices_iff]
      dsimp only
      split
      · next hnone => exact iff_of_true rfl hnone
      · next hsome => exact iff_of_false (by decide) hsome

theorem compiles_writeFiles (hgather : (gather d r.inputs).2 = some (first :: files))
    (hprints : r.prints d = false) (notices : List Notice) :
    Compiles env r d
      (writeFiles (loaded.override r.overrides) r.output (first :: files) notices d) := by
  by_cases hfits : (1 < (first :: files).length &&
      r.output.any fun o => !namesDirectory d o) = true
  · rw [writeFiles, if_pos hfits]
    exact .declined rfl rfl
  · obtain ⟨hdisk, hcode, hsuccess⟩ := code_of_results hfits notices
    refine .written hload hgather hprints ?_ hdisk hcode hsuccess
    rw [Bool.and_eq_true, not_and_or, decide_eq_true_eq, Nat.not_lt, Option.any_eq_true] at hfits
    -- The check passed, so there is one file or every output names a directory.
    refine hfits.imp_right fun hnames o ho => ?_
    rw [← Bool.not_eq_false]
    exact fun hnot => hnames ⟨o, ho, by rw [hnot]; rfl⟩

theorem compiles_compileWith :
    Compiles env r d (compileWith (loaded.override r.overrides) r d) := by
  rw [compileWith]
  split
  · next hgather => exact .missing rfl rfl (by rw [hgather])
  · next hgather => exact .nothing rfl rfl (by rw [hgather])
  · next notices first files hgather =>
    have hfiles : (gather d r.inputs).2 = some (first :: files) := by rw [hgather]
    split
    · next input houtput hinputs =>
      have hprints : r.prints d = !d.isDirectory input := by
        simp only [CompileRequest.prints, houtput, hinputs]
      split
      · next hdirectory =>
        rw [← houtput]
        exact compiles_writeFiles hload hfiles (by rw [hprints, hdirectory]; rfl) notices
      · next hdirectory =>
        -- The input itself is the only file.
        rw [hinputs, gather, if_neg hdirectory] at hgather
        split at hgather
        · obtain ⟨-, rfl, rfl⟩ : _ ∧ input = first ∧ [] = files := by simpa [gather] using hgather
          exact .printed hload hfiles (by simp [hprints, hdirectory])
        · simp at hgather
    · next hmany =>
      refine compiles_writeFiles hload hfiles ?_ notices
      rw [CompileRequest.prints]
      split
      · next input houtput hinputs => exact absurd hinputs (hmany input houtput)
      · rfl

end Compiles

theorem compiles (env : Environment) (r : CompileRequest) (d : Disk) :
    Compiles env r d (compile env r d) := by
  rw [compile]
  split
  · exact .declined rfl rfl
  · split
    · next hload => exact .unloaded rfl rfl hload
    · next hload => exact compiles_compileWith hload

theorem code_printFile {config : Config} {input : Path} {notices : List Notice} {d : Disk} :
    (printFile config input notices d).disk = d ∧
    (printFile config input notices d).code ≠ refused ∧
      ((printFile config input notices d).code = success ↔
        ∃ text, compileFile d config input = .ok text) := by
  rw [printFile]
  cases compileFile d config input with
  | ok text => simp [success, refused]
  | error error => cases error <;> simp [Outcome.ofFault, crashed, success, failure, refused]

namespace Compiles

variable {env : Environment} {r : CompileRequest} {d : Disk} {after : Outcome}

/-- Nothing is compiled unless the request is taken, the settings are loaded and all inputs exist.
-/
theorem idle (h : Compiles env r d after)
    (hwhy : after.code = refused ∨ (∃ error, Config.load env d r.config = .error error) ∨
      ∃ input ∈ r.inputs, d.pathExists input = false) :
    after.disk = d ∧ after.code ≠ success := by
  rw [← gather_eq_none_iff] at hwhy
  cases h with
  | declined hdisk hcode => exact ⟨hdisk, by rw [hcode]; decide⟩
  | unloaded hdisk hcode => exact ⟨hdisk, by rw [hcode]; decide⟩
  | missing hdisk hcode => exact ⟨hdisk, by rw [hcode]; decide⟩
  | nothing hdisk hcode => exact ⟨hdisk, by rw [hcode]; decide⟩
  | printed hload hgather =>
    exact absurd hwhy (by simp [hload, hgather, code_printFile])
  | written hload hgather _ _ _ hcode => exact absurd hwhy (by simp [hload, hgather, hcode])

end Compiles

/-- The command changes a disk only by what it compiles. It leaves the disk alone if it is refused,
if the settings cannot be loaded or if an input does not exist. Else a single file may be printed,
or all files are compiled as long as there is no fault, and what is new on the disk is their
results, in whatever order they are compiled. The command succeeds if there is a file and all files
are compiled.
-/
theorem compile_touches {d : Disk} (htree : d.IsFileTree) (env : Environment)
    (r : CompileRequest) :
    let after := compile env r d
    (after.code = refused ∨ (∃ error, Config.load env d r.config = .error error) ∨
      (∃ input ∈ r.inputs, d.pathExists input = false) →
        after.disk = d ∧ after.code ≠ success) ∧
    ∀ loaded files, after.code ≠ refused → Config.load env d r.config = .ok loaded →
      (gather d r.inputs).2 = some files →
      let config := loaded.override r.overrides
      (r.prints d = true → after.disk = d ∧ (after.code = success ↔
        files ≠ [] ∧ ∀ input ∈ files, ∃ text, compileFile d config input = .ok text)) ∧
      (r.prints d = false → after.disk = (compileFiles config r.output files d).1 ∧
        (after.code = success ↔ files ≠ [] ∧
          ∀ result ∈ (compileFiles config r.output files d).2, result.error = none) ∧
        ∀ order, order.Perm files →
          Compiled config r.output d order (compileFiles config r.output order d)) := by
  have hcompiles := compiles env r d
  generalize compile env r d = after at hcompiles
  refine ⟨hcompiles.idle, fun loaded files hcode hload hgather => ?_⟩
  cases hcompiles with
  | declined _ hrefused => exact absurd hrefused hcode
  | unloaded _ _ herror => exact absurd (herror.symm.trans hload) nofun
  | missing _ _ hnone => exact absurd (hnone.symm.trans hgather) nofun
  | nothing hdisk hfailure hempty =>
    obtain rfl : files = [] := Option.some.inj (hgather.symm.trans hempty)
    have hfails : after.code ≠ success := by rw [hfailure]; decide
    have hfits : FitsOutput d r.output [] := .inl (Nat.zero_le 1)
    exact ⟨fun _ => ⟨hdisk, iff_of_false hfails (by simp)⟩, fun _ => ⟨hdisk,
      iff_of_false hfails (by simp),
      fun order horder => compiled_compileFiles htree.start _ (hfits.perm horder)⟩⟩
  | printed hload' hgather' hprints =>
    obtain rfl := Option.some.inj (hgather'.symm.trans hgather)
    obtain rfl := Except.ok.inj (hload'.symm.trans hload)
    refine ⟨fun _ => ⟨code_printFile.1, ?_⟩, fun hnot => absurd (hnot.symm.trans hprints) nofun⟩
    rw [code_printFile.2.2]
    simp
  | written hload' hgather' hprints hfits hdisk _ hsuccess =>
    obtain rfl := Option.some.inj (hgather'.symm.trans hgather)
    obtain rfl := Except.ok.inj (hload'.symm.trans hload)
    refine ⟨fun hnot => absurd (hnot.symm.trans hprints) nofun, fun _ => ⟨hdisk, ?_,
      fun order horder => compiled_compileFiles htree.start _ (hfits.perm horder)⟩⟩
    rw [hsuccess]
    simp

end Command

end Compiling

namespace Command

open scoped Minifier

/-- A token file, and one that holds no tokens. -/
def mixedSources : Disk where
  root := .directory [("a.json", .file (some "[]")), ("b.json", .file (some "\x7b"))]

/-- With a missing input nothing is compiled. Else the result of the first file is written, though
the other one fails, and so does the command. -/
theorem compile_touches_mixedSources :
    (compile {} { inputs := [⟨"a.json"⟩, ⟨"c.json"⟩] } mixedSources).disk = mixedSources ∧
    (compile {} { inputs := [⟨"a.json"⟩, ⟨"b.json"⟩] } mixedSources).code ≠ success ∧
    ∃ result ∈ (compileFiles {} none [⟨"a.json"⟩, ⟨"b.json"⟩] mixedSources).2,
      result.error = none ∧ (compile {} { inputs := [⟨"a.json"⟩, ⟨"b.json"⟩] }
        mixedSources).disk.locate? result.output = some ["a.css"] := by
  have htree : mixedSources.IsFileTree := by decide +kernel
  have hload : Config.load {} mixedSources none = .ok {} := by rfl
  obtain ⟨-, hmany⟩ := compile_touches htree {} { inputs := [⟨"a.json"⟩, ⟨"b.json"⟩] }
  obtain ⟨-, hwritten⟩ := hmany {} [⟨"a.json"⟩, ⟨"b.json"⟩] (by decide +kernel) hload
    (by decide +kernel)
  obtain ⟨hdisk, -, hcompiled⟩ := hwritten rfl
  have hresults : OnlyResults {} mixedSources _ _ := (hcompiled _ (.refl _)).onlyResults
  refine ⟨?_, by decide +kernel, ?_⟩
  · refine ((compile_touches htree {} { inputs := [⟨"a.json"⟩, ⟨"c.json"⟩] }).1 ?_).1
    exact .inr (.inr ⟨⟨"c.json"⟩, by simp, by decide +kernel⟩)
  · rw [hdisk]
    have hthere : ((compileFiles {} none [⟨"a.json"⟩, ⟨"b.json"⟩] mixedSources).1.node?
        ["a.css"]).isSome = true := by decide +kernel
    obtain ⟨node, hnode⟩ := Option.isSome_iff_exists.1 hthere
    obtain ⟨result, hmem, _, _, -, -, -, hkind⟩ := hresults _ node hnode (by
      rw [show mixedSources.node? ["a.css"] = none by decide +kernel]
      exact nofun)
    obtain ⟨-, hok, hlocate⟩ := hkind.resolve_left (by
      rintro rfl
      exact absurd (Disk.isDirectoryAt_iff.2 hnode) (by decide +kernel))
    exact ⟨result, hmem, hok, hlocate⟩

end Command

end GridStyle
