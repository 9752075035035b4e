import GridStyle.Proofs.Files.Preparation
import GridStyle.Proofs.Files.Siblings
import GridStyle.Proofs.Passes

/-!
# The Order of a Pass

The first result that a pass writes makes the directories for all of them, and afterwards only files
are written. So what becomes of an input is settled before the pass begins (`PassOptions.verdict`),
and a pass writes the results in its order to the disk with these directories
(`PassOptions.Readied.runs`).

The order matters only if two inputs write different texts to one location. Different output paths
may lead to one location, but then they come from one file, or from files of one directory with the
same stem, of which a search finds both in the same places (`PassOptions.agree_verdicts`). So with
different output paths every order leads to the same tree and the same report
(`PassOptions.order_irrelevant`). But where the output directory leads up, the reason for which a
result cannot be written may be another one once directories were made (`PassOptions.upwardPass`).
-/

namespace GridStyle

open GridStyle.Path

/-- Both disks hold the same directories and files, whatever the order in which directories list
them. -/
structure Disk.Alike (d d' : Disk) : Prop where
  working_eq : d.working = d'.working
  node?_eq : ∀ m, d.node? m = d'.node? m

/-! ### Texts at one location -/

namespace Outcomes

/-- All texts that are written to one location are the same. -/
def Agree (outcomes : Outcomes) : Prop :=
  ∀ x ∈ outcomes, ∀ y ∈ outcomes, ∀ m text text', x.2 = .written m text →
    y.2 = .written m text' → text = text'

theorem exists_of_lastText {outcomes : Outcomes} {m : List String} {text : String}
    (h : lastText outcomes m = some text) : ∃ x ∈ outcomes, x.2 = .written m text := by
  induction outcomes with
  | nil => exact absurd h.symm (Option.some_ne_none _)
  | cons x outcomes ih =>
    obtain ⟨input, outcome⟩ := x
    cases outcome with
    | failed error =>
      obtain ⟨y, hy, hwritten⟩ := ih h
      exact ⟨y, List.mem_cons_of_mem _ hy, hwritten⟩
    | written m' text' =>
      rw [lastText, Option.or_eq_some_iff] at h
      obtain h | ⟨-, h⟩ := h
      · obtain ⟨y, hy, hwritten⟩ := ih h
        exact ⟨y, List.mem_cons_of_mem _ hy, hwritten⟩
      · rw [Option.ite_none_right_eq_some, Option.some.injEq] at h
        obtain ⟨rfl, rfl⟩ := h
        exact ⟨_, List.mem_cons_self, rfl⟩

theorem exists_lastText {outcomes : Outcomes} {x : Path × Outcome} (hx : x ∈ outcomes)
    {m : List String} {text : String} (hwritten : x.2 = .written m text) :
    ∃ last, lastText outcomes m = some last := by
  rw [← Option.isSome_iff_exists]
  induction outcomes with
  | nil => exact absurd hx List.not_mem_nil
  | cons first outcomes ih =>
    obtain ⟨input, outcome⟩ := first
    obtain rfl | hrest := List.mem_cons.1 hx
    · obtain rfl : outcome = .written m text := hwritten
      rw [lastText, if_pos rfl, Option.isSome_or, Option.isSome_some, Bool.or_true]
    · cases outcome with
      | failed error => exact ih hrest
      | written m' text' => rw [lastText, Option.isSome_or, ih hrest, Bool.true_or]

theorem Agree.lastText_eq_some_iff {outcomes : Outcomes} (h : outcomes.Agree) {m : List String}
    {text : String} :
    lastText outcomes m = some text ↔ ∃ x ∈ outcomes, x.2 = .written m text := by
  refine ⟨exists_of_lastText, fun ⟨x, hx, hwritten⟩ => ?_⟩
  obtain ⟨last, hlast⟩ := exists_lastText hx hwritten
  obtain ⟨y, hy, hwritten'⟩ := exists_of_lastText hlast
  rw [hlast, h y hy x hx m last text hwritten' hwritten]

/-- If all agree the last one does not matter, nor does the order. -/
theorem Agree.lastText_perm {outcomes outcomes' : Outcomes} (h : outcomes.Agree)
    (hperm : outcomes.Perm outcomes') (m : List String) :
    lastText outcomes m = lastText outcomes' m := by
  have h' : outcomes'.Agree := fun x hx y hy => h x (hperm.mem_iff.2 hx) y (hperm.mem_iff.2 hy)
  refine Option.ext fun text => ?_
  rw [h.lastText_eq_some_iff, h'.lastText_eq_some_iff]
  simp only [hperm.mem_iff]

theorem working_write (outcomes : Outcomes) (d : Disk) :
    (write outcomes d).working = d.working := by
  induction outcomes generalizing d with
  | nil => rfl
  | cons x outcomes ih =>
    refine (ih _).trans ?_
    change (x.2.write d).working = d.working
    cases x.2 <;> rfl

/-- Every location shows the text that is written there last, or what it showed before. -/
theorem node?_write {outcomes : Outcomes} {d : Disk}
    (h : ∀ x ∈ outcomes, ∀ m text, x.2 = .written m text → d.Takes m) (m : List String) :
    (write outcomes d).node? m =
      ((lastText outcomes m).map fun text => .file (some text)).or (d.node? m) := by
  induction outcomes generalizing d with
  | nil => rfl
  | cons x outcomes ih =>
    obtain ⟨input, outcome⟩ := x
    obtain ⟨hfirst, hrest⟩ := List.forall_mem_cons.1 h
    cases outcome with
    | failed error => exact ih hrest
    | written m' text =>
      have htakes := hfirst m' text rfl
      have hgrown : Disk.Grown Disk.FileOnly d (d.putAt (.file (some text)) m') :=
        htakes.grown_putAt rfl
      refine (ih fun x hx m text hwritten => (hrest x hx m text hwritten).grown hgrown).trans ?_
      rw [htakes.node?_putAt, lastText]
      cases lastText outcomes m with
      | some last => rfl
      | none =>
        rw [Option.none_or]
        split <;> rfl

/-- Without clashes the order in which results are written does not matter. -/
theorem Agree.alike_write {outcomes outcomes' : Outcomes} (h : outcomes.Agree)
    (hperm : outcomes.Perm outcomes') {d : Disk}
    (htakes : ∀ x ∈ outcomes, ∀ m text, x.2 = .written m text → d.Takes m) :
    (write outcomes d).Alike (write outcomes' d) := by
  refine ⟨by rw [working_write, working_write], fun m => ?_⟩
  rw [node?_write htakes, node?_write fun x hx => htakes x (hperm.mem_iff.2 hx),
    h.lastText_perm hperm]

end Outcomes

namespace PassOptions

/-! ### Output paths -/

/-- Different inputs have different output paths. -/
def TargetsDiffer (o : PassOptions) (d : Disk) : Prop :=
  ∀ input ∈ o.inputs d, ∀ other ∈ o.inputs d, o.target input = o.target other → input = other

instance (o : PassOptions) (d : Disk) : Decidable (o.TargetsDiffer d) :=
  inferInstanceAs (Decidable (∀ input ∈ o.inputs d, ∀ other ∈ o.inputs d,
    o.target input = o.target other → input = other))

/-- Without an output directory a pass compiles the token files that it finds. -/
theorem mem_inputs_iff {o : PassOptions} (houtput : o.output = none) {d : Disk} {input : Path} :
    input ∈ o.inputs d ↔ isTokenFile input = true ∧ ∃ extension ∈ tokenExtensions,
      input ∈ Glob.find d ⟨o.source.text ++ "/**/*." ++ extension⟩ := by
  rw [inputs, List.mem_filter, findTokenFiles, List.mem_mergeSort, List.mem_filter,
    List.mem_flatMap, houtput]
  simp [and_comm]

/-- Without an output directory the output path is made of the parent and the name. -/
theorem target_congr {o : PassOptions} (houtput : o.output = none) {input other : Path}
    (hparent : input.parent? = other.parent?) (hresult : o.resultOf input = o.resultOf other) :
    o.target input = o.target other := by
  have hname : resultName input o.config.format.extension =
      resultName other o.config.format.extension := congrArg Path.mk hresult
  simp only [target, outputPath, houtput, Option.map_none, hparent, hname]

/-- Inputs in one directory with results of one name are one file. Else the search would have found
the other file beside the first one, with the same output path. -/
theorem name_eq_of_resultOf_eq {o : PassOptions} {d : Disk} (htree : d.IsFileTree)
    (hdiffer : o.TargetsDiffer d) (houtput : o.output = none) {input other : Path}
    (hinput : input ∈ o.inputs d) (hother : other ∈ o.inputs d)
    {location front front' : List String} {name name' : String} (hends : input.EndsIn front name) (hends' : other.EndsIn front' name')
    (hlocate : d.locate? input = some (location ++ [name]))
    (hlocate' : d.locate? other = some (location ++ [name']))
    (hresult : o.resultOf input = o.resultOf other) : name = name' := by
  have htoken := ((mem_inputs_iff houtput).1 hother).1
  obtain ⟨-, extension, hextension, hfind⟩ := (mem_inputs_iff houtput).1 hinput
  obtain ⟨extension', hextension', hname'⟩ :=
    name_of_isTokenFile hends'.1 (isTokenFile_of_endsIn hends' ▸ htoken)
  have hisName := hends'.1
  have hexists := (Disk.walk_eq_some (Disk.locate?_eq_some_iff.1 hlocate').2.2).2
  rw [hname'] at hisName hexists
  -- The other file is found where the first one was.
  obtain ⟨beside, hbeside, hparent, front₂, hends₂⟩ :=
    Glob.exists_sibling htree hextension hextension' hfind hlocate hexists hisName
  rw [← hname'] at hends₂
  have hmem : beside ∈ o.inputs d := by
    refine (mem_inputs_iff houtput).2 ⟨?_, extension', hextension', hbeside⟩
    rw [isTokenFile_of_endsIn hends₂, ← isTokenFile_of_endsIn hends', htoken]
  -- There it would have the output path of the first one.
  have htarget : o.target beside = o.target input :=
    target_congr houtput hparent (by rw [hresult, resultOf_eq o hends₂, resultOf_eq o hends'])
  obtain rfl := hdiffer beside hmem input hinput htarget
  exact Option.some.inj (hends.fileName?_eq.symm.trans hends₂.fileName?_eq)

/-! ### What is settled before the pass -/

section Minified

variable [Minifier]

/-- The text of an input is compiled. -/
def Compiles (o : PassOptions) (d : Disk) (input : Path) : Prop :=
  ∃ text, compileFile d o.config input = .ok text

/-- What becomes of an input on a disk on which the directories of all results are prepared. -/
def verdict (o : PassOptions) (d prepared : Disk) (input : Path) : Outcome :=
  match compileFile d o.config input with
  | .error error => .failed (o.seen error)
  | .ok text =>
    match prepared.place (o.target input) with
    | .error reason => .failed (o.seen (.unwritable reason))
    | .ok m => .written m text

/-- The inputs of a pass with what becomes of them. -/
def verdicts (o : PassOptions) (d prepared : Disk) (order : List Path) : Outcomes :=
  order.map fun input => (input, o.verdict d prepared input)

theorem verdicts_cons (o : PassOptions) (d prepared : Disk) (input : Path) (order : List Path) :
    o.verdicts d prepared (input :: order) =
      (input, o.verdict d prepared input) :: o.verdicts d prepared order :=
  rfl

/-- Files that a pass writes. -/
def Writes (o : PassOptions) (m : List String) (new : Entry) : Prop :=
  Disk.FileOnly m new ∧ o.Makes m new

/-- Preparing to save the first result makes another disk of the first one, and all results are
saved there. -/
structure Readied (o : PassOptions) (d prepared : Disk) : Prop where
  grown : Disk.Grown o.Makes d prepared
  readies : ∀ input ∈ o.inputs d, o.Compiles d input →
    d.Readies o.outputDescends (o.target input) prepared
  of_none : o.output = none → prepared = d
  needed : prepared = d ∨ ∃ input ∈ o.inputs d, o.Compiles d input

section Inputs

variable {o : PassOptions} {d prepared d' : Disk} {input : Path} {text : String}

theorem verdict_eq_written_iff {m : List String} :
    o.verdict d prepared input = .written m text ↔
      compileFile d o.config input = .ok text ∧
        prepared.place (o.target input) = .ok m := by
  rw [verdict]
  cases compileFile d o.config input with
  | error error => simp
  | ok text' =>
    cases prepared.place (o.target input) with
    | error reason => simp
    | ok m' => simp [and_comm]

/-- An input that comes to no fault has none for its verdict. -/
theorem fault?_verdict (h : o.fault? d input = none) :
    (o.verdict d prepared input).fault? = none := by
  rw [fault?] at h
  rw [verdict]
  cases hcompile : compileFile d o.config input with
  | error error =>
    rw [hcompile] at h
    exact (CompileError.fault?_upTo _ error).trans h
  | ok text' => cases prepared.place (o.target input) <;> rfl

variable (htree : d.IsFileTree) (hinput : input ∈ o.inputs d)
include htree hinput

/-- An input that cannot be compiled changes nothing. -/
theorem compileTo_of_error {error : CompileError}
    (h : compileFile d o.config input = .error error) (hgrown : Disk.Grown o.Makes d d') :
    compileTo o.config input (o.target input) d' = (d', some error) := by
  rw [compileTo, if_neg (not_same_target htree hinput),
    compileFile_grown (Disk.provides_of_mem htree hinput) hgrown, h]

/-- The result of an input is saved on the way to a name. -/
theorem exists_preparing_target (h : o.Compiles d input) :
    ∃ front, (o.target input).pieces = front ++ [o.resultOf input] ∧
      IsName (o.resultOf input) ∧ d.Preparing (o.target input) front (d.prepare (o.target input)).1 ∧
      (o.outputDescends = true → d.Direct (o.target input) front) ∧
      Disk.Grown o.Makes d (d.prepare (o.target input)).1 ∧
      (o.output = none → (d.prepare (o.target input)).1 = d) := by
  have hprovides := Disk.provides_of_mem htree hinput
  obtain ⟨text, htext⟩ := h
  obtain ⟨front, name, hends⟩ := hprovides.endsIn
  have hname := isName_resultOf o hends
  have hread := read?_ne_none htext
  obtain ⟨front', hpieces, hmakes, hdirect⟩ := exists_pieces_target hprovides hread
    fun output => output_ne_empty hinput
  obtain ⟨d₁, hpreparing⟩ :=
    Disk.exists_preparing (hprovides.start (o.target input)) hname hpieces
  obtain rfl := hpreparing.fst_prepare
  refine ⟨front', hpieces, hname, hpreparing, hdirect, hpreparing.grown.mono hmakes,
    fun hnone => ?_⟩
  -- The directory of the input is there, so nothing is made.
  obtain ⟨_, hpieces', hreaches⟩ := exists_pieces_target_of_none hnone hends
  obtain ⟨rfl, -⟩ := List.append_inj' (hpieces.symm.trans hpieces') rfl
  obtain ⟨location, hlocation, -⟩ := Disk.reaches_of_read? hends hread
  exact hpreparing.grown.eq_self fun m new hmade => hmade.1 location (hreaches d location hlocation)

/-- A text is saved as the verdict says, whatever was prepared before. -/
theorem compileTo_of_saved {text : String} (hcompile : compileFile d o.config input = .ok text)
    (hmade : Disk.Grown o.Makes d d') {d₁ : Disk}
    (hsave : Disk.SavedAlike o.outputDescends (d'.save (o.target input) text)
      (d₁.saveAt (prepared.place (o.target input)) text)) :
    (compileTo o.config input (o.target input) d').1 = (o.verdict d prepared input).write d₁ ∧
      (compileTo o.config input (o.target input) d').2.map o.seen =
        (o.verdict d prepared input).error? := by
  obtain ⟨hdisk, herror⟩ := hsave
  have hseen : ∀ error : Option DiskError, (error.map CompileError.unwritable).map o.seen =
      (error.map (DiskError.upTo o.outputDescends)).map CompileError.unwritable := fun error => by
    cases error <;> rfl
  rw [compileTo_grown (Disk.provides_of_mem htree hinput) (not_same_target htree hinput) hcompile
    hmade, hdisk, hseen, herror, verdict, hcompile]
  cases prepared.place (o.target input) <;> exact ⟨rfl, rfl⟩

/-- What the pass does with an input once the directories are prepared. -/
theorem Readied.compileTo_later (h : o.Readied d prepared)
    (hgrown : Disk.Grown o.Writes prepared d') :
    (compileTo o.config input (o.target input) d').1 = (o.verdict d prepared input).write d' ∧
      (compileTo o.config input (o.target input) d').2.map o.seen =
        (o.verdict d prepared input).error? := by
  have hmade : Disk.Grown o.Makes d d' := h.grown.trans (hgrown.mono fun _ _ hnew => hnew.2)
  cases hcompile : compileFile d o.config input with
  | error error =>
    rw [compileTo_of_error htree hinput hcompile hmade, verdict, hcompile]
    exact ⟨rfl, rfl⟩
  | ok text =>
    exact compileTo_of_saved htree hinput hcompile hmade
      ((h.readies input hinput ⟨text, hcompile⟩).later d' (hgrown.mono fun _ _ hnew => hnew.1) text)

/-- The first result that is compiled prepares the directories. -/
theorem Readied.compileTo_first (h : o.Readied d prepared) (hcompiles : o.Compiles d input) :
    (compileTo o.config input (o.target input) d).1 = (o.verdict d prepared input).write prepared ∧
      (compileTo o.config input (o.target input) d).2.map o.seen =
        (o.verdict d prepared input).error? := by
  obtain ⟨text, hcompile⟩ := hcompiles
  exact compileTo_of_saved htree hinput hcompile .refl
    ((h.readies input hinput ⟨text, hcompile⟩).first text)

/-- A result is written to the place of its path. -/
theorem Readied.target_of_verdict (h : o.Readied d prepared) {m : List String}
    (hwritten : o.verdict d prepared input = .written m text) :
    ∃ front, (o.target input).pieces = front ++ [o.resultOf input] ∧ IsName (o.resultOf input) ∧
      prepared.target (o.target input) = .ok m := by
  obtain ⟨hcompile, hplace⟩ := verdict_eq_written_iff.1 hwritten
  obtain ⟨front, hpieces, hname, -⟩ := exists_preparing_target htree hinput ⟨text, hcompile⟩
  exact ⟨front, hpieces, hname,
    (h.readies input hinput ⟨text, hcompile⟩).target_of_place m hplace⟩

/-- A result is written where a file can be, under a name of no token file. -/
theorem Readied.takes_of_verdict (h : o.Readied d prepared) {m : List String}
    (hwritten : o.verdict d prepared input = .written m text) :
    prepared.Takes m ∧ o.Writes m (.file (some text)) := by
  obtain ⟨front, hpieces, hname, htarget⟩ := h.target_of_verdict htree hinput hwritten
  obtain ⟨_, _, hends⟩ := (Disk.provides_of_mem htree hinput).endsIn
  have htakes := Disk.takes_of_target hname hpieces htarget
  obtain ⟨-, -, location, -, -, rfl⟩ := (Disk.target_eq_ok_iff hname hpieces).1 htarget
  exact ⟨htakes, rfl, .inr ⟨rfl, _, List.getLast?_concat, hname, isTokenFile_resultOf o hends⟩⟩

/-- The location of a result has its name, and without an output directory it is in the directory of
the input. -/
theorem Readied.located_of_verdict (h : o.Readied d prepared) {m : List String}
    (hwritten : o.verdict d prepared input = .written m text) :
    ∃ location, m = location ++ [o.resultOf input] ∧
      (o.output = none → ∃ front name, input.EndsIn front name ∧
        d.locate? input = some (location ++ [name])) := by
  obtain ⟨hcompile, -⟩ := verdict_eq_written_iff.1 hwritten
  obtain ⟨front, hpieces, hname, htarget⟩ := h.target_of_verdict htree hinput hwritten
  obtain ⟨-, -, location, hreaches, -, rfl⟩ := (Disk.target_eq_ok_iff hname hpieces).1 htarget
  refine ⟨location, rfl, fun houtput => ?_⟩
  rw [h.of_none houtput] at hreaches
  obtain ⟨front', name, hends⟩ := (Disk.provides_of_mem htree hinput).endsIn
  obtain ⟨location', hlocation', hlocate⟩ :=
    Disk.reaches_of_read? hends (read?_ne_none hcompile)
  obtain ⟨_, hpieces', hsame⟩ := exists_pieces_target_of_none houtput hends
  obtain ⟨rfl, -⟩ := List.append_inj' (hpieces.symm.trans hpieces') rfl
  -- Both ways lead to one directory.
  obtain rfl : location' = location :=
    Option.some.inj ((hsame _ location' hlocation').1.symm.trans hreaches.1)
  exact ⟨front', name, hends, hlocate⟩

theorem Readied.grown_write_verdict (h : o.Readied d prepared)
    (hgrown : Disk.Grown o.Writes prepared d') :
    Disk.Grown o.Writes prepared ((o.verdict d prepared input).write d') := by
  cases hverdict : o.verdict d prepared input with
  | failed error => exact hgrown
  | written m text =>
    obtain ⟨htakes, hwrites⟩ := h.takes_of_verdict htree hinput hverdict
    exact hgrown.trans ((htakes.grown (hgrown.mono fun _ _ hnew => hnew.1)).grown_putAt hwrites)

end Inputs

section Orders

variable {o : PassOptions} {d prepared d' : Disk} {order : List Path} (htree : d.IsFileTree)
include htree

/-- All results share what is prepared for the first of them. -/
theorem exists_readied : ∃ prepared, o.Readied d prepared := by
  by_cases hany : ∃ input ∈ o.inputs d, o.Compiles d input
  · have hsome := hany
    obtain ⟨first, hfirst, hcompiles⟩ := hany
    obtain ⟨front, hpieces, hname, -, -, hgrown, hnone⟩ :=
      exists_preparing_target htree hfirst hcompiles
    refine ⟨(d.prepare (o.target first)).1, hgrown, fun input hinput hinputCompiles => ?_, hnone,
      .inr hsome⟩
    obtain ⟨front', hpieces', hname', hpreparing, hdirect, -, hnone'⟩ :=
      exists_preparing_target htree hinput hinputCompiles
    -- The target of any other input is in the same directory, which is prepared alike.
    have hshared : (d.prepare (o.target first)).1 = (d.prepare (o.target input)).1 := by
      cases houtput : o.output with
      | none => rw [hnone houtput, hnone' houtput]
      | some output =>
        have hempty := output_ne_empty hfirst houtput
        obtain ⟨base, -, hbase⟩ := exists_pieces_join
          (show output.asDirectory.isEmpty = false from isEmpty_join hempty (by decide))
        have hparent : (o.target first).parent? = (o.target input).parent? := by
          rw [target_of_some houtput hempty, target_of_some houtput hempty]
          exact parent?_congr (hbase _ hname.noSlash) (hbase _ hname'.noSlash) hname hname'
        rw [Disk.prepare_congr hparent]
    rw [hshared]
    exact hpreparing.readies hname' hpieces' hdirect
  · exact ⟨d, .refl, fun input hinput hcompiles => absurd ⟨input, hinput, hcompiles⟩ hany,
      fun _ => rfl, .inl rfl⟩

variable (h : o.Readied d prepared) (horder : ∀ input ∈ order, input ∈ o.inputs d)
  (hgoes : ∀ input ∈ order, o.fault? d input = none)
include h horder hgoes

/-- With the directories prepared a pass writes its results in their order. -/
theorem Readied.runs_later (hgrown : Disk.Grown o.Writes prepared d') :
    o.Runs d' order (o.verdicts d prepared order) ((o.verdicts d prepared order).write d') := by
  induction order generalizing d' with
  | nil => exact ⟨[], rfl, rfl⟩
  | cons input order ih =>
    obtain ⟨hinput, hrest⟩ := List.forall_mem_cons.1 horder
    obtain ⟨hgoesFirst, hgoesRest⟩ := List.forall_mem_cons.1 hgoes
    obtain ⟨hdisk, herror⟩ := h.compileTo_later htree hinput hgrown
    exact .next hdisk herror (fault?_verdict hgoesFirst)
      (ih hrest hgoesRest (h.grown_write_verdict htree hinput hgrown))

/-- A pass writes its results in their order to the prepared disk. -/
theorem Readied.runs (hneeded : prepared = d ∨ ∃ input ∈ order, o.Compiles d input) :
    o.Runs d order (o.verdicts d prepared order) ((o.verdicts d prepared order).write prepared) := by
  induction order with
  | nil =>
    obtain rfl := hneeded.resolve_right (by simp)
    exact ⟨[], rfl, rfl⟩
  | cons input order ih =>
    obtain ⟨hinput, hrest⟩ := List.forall_mem_cons.1 horder
    obtain ⟨hgoesFirst, hgoesRest⟩ := List.forall_mem_cons.1 hgoes
    by_cases hcompiles : o.Compiles d input
    · -- The first result that is compiled prepares the disk, for all later ones.
      obtain ⟨hdisk, herror⟩ := h.compileTo_first htree hinput hcompiles
      exact .next hdisk herror (fault?_verdict hgoesFirst)
        (h.runs_later htree hrest hgoesRest (h.grown_write_verdict htree hinput .refl))
    · -- Nothing was prepared yet, and nothing changes.
      have hneeded' : prepared = d ∨ ∃ input ∈ order, o.Compiles d input := by
        refine hneeded.imp_right ?_
        rintro ⟨other, hother, hdone⟩
        obtain rfl | hother := List.mem_cons.1 hother
        · exact absurd hdone hcompiles
        · exact ⟨other, hother, hdone⟩
      cases hcompile : compileFile d o.config input with
      | ok text => exact absurd ⟨text, hcompile⟩ hcompiles
      | error error =>
        have hcompileTo := compileTo_of_error htree hinput hcompile .refl
        have hverdict : o.verdict d prepared input = .failed (o.seen error) := by
          rw [verdict, hcompile]
        have hfirst : (o.verdict d prepared input).fault? = none := fault?_verdict hgoesFirst
        rw [verdicts_cons, hverdict]
        rw [hverdict] at hfirst
        exact .next (by rw [hcompileTo]) (by rw [hcompileTo]; rfl) hfirst
          (ih hrest hgoesRest hneeded')

end Orders

/-! ### Results at one location -/

section Clashes

variable {o : PassOptions} {d prepared : Disk} {input other : Path} (htree : d.IsFileTree)
  (hdiffer : o.TargetsDiffer d) (hinput : input ∈ o.inputs d) (hother : other ∈ o.inputs d)
include htree hdiffer hinput hother

/-- What is written to one location is the same. -/
theorem Readied.text_eq (h : o.Readied d prepared) {m : List String} {text text' : String}
    (hwritten : o.verdict d prepared input = .written m text)
    (hwritten' : o.verdict d prepared other = .written m text') : text = text' := by
  obtain ⟨hcompile, -⟩ := verdict_eq_written_iff.1 hwritten
  obtain ⟨hcompile', -⟩ := verdict_eq_written_iff.1 hwritten'
  obtain ⟨location, hm, hlocate⟩ := h.located_of_verdict htree hinput hwritten
  obtain ⟨location', rfl, hlocate'⟩ := h.located_of_verdict htree hother hwritten'
  obtain ⟨rfl, hresult⟩ := List.append_inj' hm rfl
  rw [List.cons.injEq] at hresult
  have hsame : compileFile d o.config input = compileFile d o.config other := by
    cases houtput : o.output with
    | some output =>
      -- The name tells the output path.
      have htarget : o.target input = o.target other := by
        rw [target_of_some houtput (output_ne_empty hinput houtput),
          target_of_some houtput (output_ne_empty hinput houtput), hresult.1]
      rw [hdiffer input hinput other hother htarget]
    | none =>
      obtain ⟨front, name, hends, hlocate⟩ := hlocate houtput
      obtain ⟨front', name', hends', hlocate'⟩ := hlocate' houtput
      have hname := name_eq_of_resultOf_eq htree hdiffer houtput hinput hother hends hends' hlocate
        hlocate' hresult.1.symm
      rw [compileFile, compileFile, Disk.read_eq, Disk.read_eq, Disk.locate_eq_ok_iff.2 hlocate,
        Disk.locate_eq_ok_iff.2 hlocate', hname]
  rw [hcompile, hcompile'] at hsame
  exact Except.ok.inj hsame

end Clashes

section Passes

variable {o : PassOptions} {d prepared : Disk} {order : List Path} (htree : d.IsFileTree)
include htree

theorem agree_verdicts (hdiffer : o.TargetsDiffer d) (h : o.Readied d prepared)
    (horder : ∀ input ∈ order, input ∈ o.inputs d) : (o.verdicts d prepared order).Agree := by
  intro x hx y hy m text text' hwritten hwritten'
  obtain ⟨input, hinput, rfl⟩ := List.mem_map.1 hx
  obtain ⟨other, hother, rfl⟩ := List.mem_map.1 hy
  exact h.text_eq htree hdiffer (horder input hinput) (horder other hother) hwritten hwritten'

/-- A pass in any order, by what is settled before it. -/
theorem Readied.runs_perm (h : o.Readied d prepared)
    (hgoes : ∀ input ∈ o.inputs d, o.fault? d input = none) (horder : order.Perm (o.inputs d)) :
    o.Runs d order (o.verdicts d prepared order) ((o.verdicts d prepared order).write prepared) := by
  refine h.runs htree (fun input => horder.mem_iff.1)
    (fun input hinput => hgoes input (horder.mem_iff.1 hinput)) (h.needed.imp_right ?_)
  rintro ⟨input, hinput, hcompiles⟩
  exact ⟨input, horder.mem_iff.2 hinput, hcompiles⟩

/-! ### Failures -/

omit htree in
/-- Files behind others are compiled on the disk that these leave. -/
theorem compileFiles_append {config : Config} {output : Option Path} {front : List Path}
    {d₁ : Disk} {results : List FileResult}
    (hfront : compileFiles config output front d = (d₁, results))
    (hgoes : results.findSome? FileResult.fault? = none) (back : List Path) :
    compileFiles config output (front ++ back) d =
      ((compileFiles config output back d₁).1,
        results ++ (compileFiles config output back d₁).2) := by
  induction front generalizing d results with
  | nil =>
    obtain ⟨rfl, rfl⟩ := Prod.mk.inj hfront
    rfl
  | cons input front ih =>
    rw [compileFiles] at hfront
    rw [List.cons_append, compileFiles]
    dsimp only at hfront ⊢
    split at hfront
    · next hfault =>
      -- The results would have shown the fault.
      obtain ⟨-, rfl⟩ := Prod.mk.inj hfront
      rw [List.findSome?_eq_none_iff, List.forall_mem_singleton] at hgoes
      rw [hgoes] at hfault
      exact absurd hfault (by decide)
    · next hnone =>
      obtain ⟨rfl, rfl⟩ := Prod.mk.inj hfront
      rw [List.findSome?_eq_none_iff, List.forall_mem_cons, ← List.findSome?_eq_none_iff] at hgoes
      rw [if_neg hnone, ih rfl hgoes.2]
      rfl

/-- An input that cannot be compiled can be left out: the pass leaves the same disk and the same
report, except for the failure of this input. -/
theorem compileEach_leave_out {front back : List Path} {input : Path} {error : CompileError}
    (horder : ∀ other ∈ front ++ input :: back, other ∈ o.inputs d)
    (hgoes : ∀ other ∈ front ++ input :: back, o.fault? d other = none)
    (herror : compileFile d o.config input = .error error) :
    ∃ d' p before after, p.failures = before ++ after ∧
      o.compileEach (front ++ back) d = (d', p) ∧
      o.compileEach (front ++ input :: back) d =
        (d', { p with failures := before ++ ⟨input, error⟩ :: after }) := by
  have hinput := horder input (by simp)
  obtain ⟨outcomes, d₁, hfront⟩ : ∃ outcomes d₁, o.Ran d front outcomes d₁ :=
    exists_ran (fun output => output_ne_empty hinput) fun other hmem =>
      Disk.provides_of_mem htree (horder other (List.mem_append_left _ hmem))
  obtain ⟨results, hrun, -⟩ := hfront.runs
  have hnone : results.findSome? FileResult.fault? = none := by
    have hfault := hfront.fault_eq htree fun other hmem =>
      horder other (List.mem_append_left _ hmem)
    rw [List.findSome?_eq_none_iff.2 fun other hmem =>
      hgoes other (List.mem_append_left _ hmem)] at hfault
    simpa only [compileEach, hrun, Pass.ofResults] using hfault
  -- When the turn of the input comes nothing that it needs has changed, and it changes nothing.
  have hcompileTo := compileTo_of_error htree hinput herror hfront.grown
  have hgoesInput : error.fault? = none := by
    have hfault := hgoes input (by simp)
    rwa [fault?, herror] at hfault
  obtain ⟨⟨d', results'⟩, hback⟩ : ∃ after,
      compileFiles o.config (o.output.map asDirectory) back d₁ = after := ⟨_, rfl⟩
  have hcons : compileFiles o.config (o.output.map asDirectory) (input :: back) d₁ =
      (d', ⟨input, o.target input, some error⟩ :: results') := by
    simp only [compileFiles, outputPath_eq_target, hcompileTo, FileResult.fault?, Option.bind_some,
      hgoesInput, hback]
    rfl
  have hfault : FileResult.fault? ⟨input, o.target input, some error⟩ = none := hgoesInput
  have hfailure :
      FileResult.failure? ⟨input, o.target input, some error⟩ = some ⟨input, error⟩ := by
    rw [FileResult.failure?, hfault]
    rfl
  refine ⟨d', .ofResults (results ++ results'), results.filterMap FileResult.failure?,
    results'.filterMap FileResult.failure?, List.filterMap_append, ?_, ?_⟩
  · simp only [compileEach, compileFiles_append hrun hnone, hback]
  · simp [compileEach, compileFiles_append hrun hnone, hcons, Pass.ofResults, List.countP_append,
      List.filterMap_cons_some hfailure, List.findSome?_append, hfault]

/-- With different output paths the order in which the inputs are compiled does not matter, as long
as none of them comes to a fault: every order leaves the tree of files that the pass leaves, and the
same report, with the failures in some order. Only the reasons for which results cannot be written
may differ, and not even these unless the output directory leads up. An input that cannot be
compiled changes nothing when its turn comes, and the pass without it leaves the same disk and the
same report, except for its failure. -/
theorem order_irrelevant (o : PassOptions) (hdiffer : o.TargetsDiffer d)
    (hgoes : ∀ input ∈ o.inputs d, o.fault? d input = none) (horder : order.Perm (o.inputs d)) :
    let each := o.compileEach order d
    let all := o.compileAll d
    each.1.Alike all.1 ∧ (each.2.fault = none ∧ all.2.fault = none) ∧
      each.2.compiled = all.2.compiled ∧
      ((each.2.upTo false).failures.Perm (all.2.upTo false).failures ∧
        (o.outputDescends = true → each.2.failures.Perm all.2.failures)) ∧
      ∀ front input back error, order = front ++ input :: back →
        compileFile d o.config input = .error error →
          (o.compileEach (front ++ [input]) d).1 = (o.compileEach front d).1 ∧
          ∃ d' p before after, p.failures = before ++ after ∧
            o.compileEach (front ++ back) d = (d', p) ∧
            each = (d', { p with failures := before ++ ⟨input, error⟩ :: after }) := by
  obtain ⟨prepared, hready⟩ := exists_readied htree (o := o)
  have hinputs : ∀ input ∈ order, input ∈ o.inputs d := fun input => horder.mem_iff.1
  have hperm : (o.verdicts d prepared order).Perm (o.verdicts d prepared (o.inputs d)) :=
    horder.map _
  have hagree := agree_verdicts htree hdiffer hready hinputs
  have htakes : ∀ x ∈ o.verdicts d prepared order, ∀ m text, x.2 = .written m text →
      prepared.Takes m := by
    intro x hx m text hwritten
    obtain ⟨input, hinput, rfl⟩ := List.mem_map.1 hx
    exact (hready.takes_of_verdict htree (hinputs input hinput) hwritten).1
  obtain ⟨hdisk, hreport⟩ := (hready.runs_perm htree hgoes horder).compileEach
  obtain ⟨hdiskAll, hreportAll⟩ := (hready.runs_perm htree hgoes (.refl _)).compileEach
  have hnone : ∀ order : List Path, (∀ input ∈ order, input ∈ o.inputs d) →
      (Pass.ofErrors (o.verdicts d prepared order).errors).fault = none := fun order horder => by
    rw [Pass.ofErrors, List.findSome?_eq_none_iff, Outcomes.errors, verdicts, List.map_map,
      List.forall_mem_map]
    exact fun input hinput => fault?_verdict (hgoes input (horder input hinput))
  -- The same errors are reported, in some order.
  obtain ⟨hcompiled, hfailures⟩ := Pass.perm_ofErrors (hperm.map fun x => (x.1, x.2.error?))
  rw [← Outcomes.errors, ← Outcomes.errors, ← hreport, ← hreportAll] at hcompiled hfailures
  dsimp only
  refine ⟨?_, ⟨?_, ?_⟩, hcompiled, ⟨?_, fun hdescends => ?_⟩, ?_⟩
  · rw [compileAll, hdisk, hdiskAll]
    exact hagree.alike_write hperm htakes
  · exact (congrArg Pass.fault hreport).trans (hnone order hinputs)
  · exact (congrArg Pass.fault hreportAll).trans (hnone _ fun _ => id)
  · have hless := hfailures.map (FileFailure.upTo false)
    change Pass.failures (Pass.upTo false _) |>.Perm (Pass.upTo false _).failures at hless
    rwa [Pass.upTo_false_upTo, Pass.upTo_false_upTo] at hless
  · rwa [hdescends, Pass.upTo_true, Pass.upTo_true] at hfailures
  · rintro front input back error rfl herror
    have hgoes' := fun other hother => hgoes other (hinputs other hother)
    refine ⟨?_, compileEach_leave_out htree hinputs hgoes' herror⟩
    have hsub : ∀ other ∈ front ++ [input], other ∈ front ++ input :: back := fun other hother => by
      simp at hother ⊢
      tauto
    obtain ⟨d', p, before, after, -, hwithout, hwith⟩ := compileEach_leave_out htree
      (fun other hother => hinputs other (hsub other hother))
      (fun other hother => hgoes' other (hsub other hother)) herror
    rw [hwith, ← List.append_nil front, hwithout]

end Passes

end Minified

open scoped Minifier

/-- A token file beside a directory with another one and one that is none. -/
def mixedDisk : Disk where
  root := .directory [("a.json", .file (some "[]")),
    ("b", .directory [("c.json", .file (some "[")), ("d.json5", .file (some "[]"))])]

/-- Results are written into a directory that is made with the one above it. -/
def deepPass : PassOptions where
  output := some ⟨"out/css"⟩

theorem inputs_deepPass :
    deepPass.inputs mixedDisk = [⟨"a.json"⟩, ⟨"b/c.json"⟩, ⟨"b/d.json5"⟩] :=
  inputs_of_sorted (by decide +kernel) (by decide +kernel) (by decide +kernel)

/-- In the reverse order two of the files are compiled as well, and the third one is not missed. -/
theorem order_irrelevant_deepPass :
    (deepPass.compileEach [⟨"b/d.json5"⟩, ⟨"b/c.json"⟩, ⟨"a.json"⟩] mixedDisk).1.Alike
        (deepPass.compileAll mixedDisk).1 ∧
      (deepPass.compileAll mixedDisk).2.compiled = 2 ∧
      (deepPass.compileEach [⟨"b/d.json5"⟩, ⟨"b/c.json"⟩, ⟨"a.json"⟩] mixedDisk).1 =
        (deepPass.compileEach [⟨"b/d.json5"⟩, ⟨"a.json"⟩] mixedDisk).1 := by
  have hdiffer : deepPass.TargetsDiffer mixedDisk := by
    rw [TargetsDiffer, inputs_deepPass]
    decide +kernel
  have horder : [⟨"b/d.json5"⟩, ⟨"b/c.json"⟩, ⟨"a.json"⟩].Perm (deepPass.inputs mixedDisk) := by
    rw [inputs_deepPass]
    decide
  have herror : ∃ error, compileFile mixedDisk deepPass.config ⟨"b/c.json"⟩ = .error error := by
    cases hcompile : compileFile mixedDisk deepPass.config ⟨"b/c.json"⟩ with
    | error error => exact ⟨error, rfl⟩
    | ok text =>
      have hfails : (compileFile mixedDisk deepPass.config ⟨"b/c.json"⟩).isOk = false := by
        decide +kernel
      rw [hcompile] at hfails
      exact Bool.noConfusion hfails
  obtain ⟨error, herror⟩ := herror
  have hgoes : ∀ input ∈ deepPass.inputs mixedDisk, deepPass.fault? mixedDisk input = none := by
    rw [inputs_deepPass]
    decide +kernel
  obtain ⟨halike, -, -, -, hleft⟩ := order_irrelevant
    (show mixedDisk.IsFileTree by decide +kernel) deepPass hdiffer hgoes horder
  obtain ⟨-, d', p, before, after, -, hwithout, hwith⟩ :=
    hleft [⟨"b/d.json5"⟩] _ [⟨"a.json"⟩] error rfl herror
  rw [List.singleton_append] at hwithout
  refine ⟨halike, ?_, by rw [hwith, hwithout]⟩
  rw [compileAll, inputs_deepPass]
  decide +kernel

/-- Two token files, and a file where the output directory should be. -/
def upwardDisk : Disk where
  root := .directory [("f", .file (some "")),
    ("src", .directory [("a.json", .file (some "[]")), ("b.json", .file (some "[]"))])]

/-- The way to the output directory leads up from one that has to be made. -/
def upwardPass : PassOptions where
  source := ⟨"src"⟩
  output := some ⟨"x/../f"⟩

theorem inputs_upwardPass : upwardPass.inputs upwardDisk = [⟨"src/a.json"⟩, ⟨"src/b.json"⟩] :=
  inputs_of_sorted (by decide +kernel) (by decide +kernel) (by decide +kernel)

/-- A token file, and one with a condition that comes to a fault. -/
def faultDisk : Disk where
  root := .directory [("a.json", .file (some "[]")),
    ("b.json", .file (some ("[\x7b\"type\": \"cond\", \"name\": \"@nth\", \"arguments\": " ++
      "[[\x7b\"type\": \"text\", \"value\": \"n-9223372036854775808\"\x7d]], " ++
      "\"styles\": []\x7d]")))]

theorem inputs_faultDisk : ({} : PassOptions).inputs faultDisk = [⟨"a.json"⟩, ⟨"b.json"⟩] :=
  inputs_of_sorted (by decide +kernel) (by decide +kernel) (by decide +kernel)

/-- Different output paths do not make the reports of two orders the same. The first result finds
the file where it wants to make a directory, and the second one finds the file on its way. And after
a fault no more files are compiled. -/
theorem order_matters :
    (upwardDisk.IsFileTree ∧ upwardPass.TargetsDiffer upwardDisk ∧
      (upwardPass.compileAll upwardDisk).2.failures =
        [⟨⟨"src/a.json"⟩, .unwritable .alreadyExists⟩,
          ⟨⟨"src/b.json"⟩, .unwritable .notDirectory⟩] ∧
      (upwardPass.compileEach [⟨"src/b.json"⟩, ⟨"src/a.json"⟩] upwardDisk).2.failures =
        [⟨⟨"src/b.json"⟩, .unwritable .alreadyExists⟩,
          ⟨⟨"src/a.json"⟩, .unwritable .notDirectory⟩]) ∧
    (faultDisk.IsFileTree ∧ ({} : PassOptions).TargetsDiffer faultDisk ∧
      (({} : PassOptions).compileAll faultDisk).1.isFile ⟨"a.css"⟩ = true ∧
      (({} : PassOptions).compileEach [⟨"b.json"⟩, ⟨"a.json"⟩] faultDisk).1.isFile ⟨"a.css"⟩ =
        false) := by
  rw [compileAll, compileAll, TargetsDiffer, TargetsDiffer, inputs_upwardPass, inputs_faultDisk]
  refine ⟨⟨?_, ?_, ?_, ?_⟩, ?_, ?_, ?_, ?_⟩ <;> decide +kernel

end PassOptions

end GridStyle
