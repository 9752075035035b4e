import GridStyle.Proofs.Files.Outcome
import GridStyle.Proofs.Files.PathOrder

/-!
# Repeated and Clashing Results

A pass compiles its inputs one after the other, up to a fault, and every input comes to an outcome
that is settled (`PassOptions.Ran`). So the order of the inputs decides no more than which of
several results stays where they are written to the same location (`PassOptions.last_result_stays`),
as for `a.json` and `a.json5` in one directory (`PassOptions.sameStem`).

A second pass in the same order does the same again and changes nothing
(`PassOptions.second_pass`). It has the same inputs, unless the name of the source directory is a
pattern, which may match what the first pass has made (`PassOptions.patternPass`).
-/

namespace GridStyle

open GridStyle.Path

/-! ### Writing results -/

namespace Disk

theorem putAt_putAt (d : Disk) (new newer : Entry) (m : List String) :
    (d.putAt new m).putAt newer m = d.putAt newer m := by
  rw [putAt, putAt, putAt, Entry.put_put]

theorem putAt_eq_self {d : Disk} {m : List String} {text : Option String}
    (h : d.node? m = some (.file text)) : d.putAt (.file text) m = d := by
  rw [putAt, Entry.put_eq_self (Entry.node?_eq_file_iff.1 h)]

theorem putAt_comm {d : Disk} {m m' : List String} (hne : m ≠ m') (h : d.HoldsFile m)
    (h' : d.HoldsFile m') (new new' : Entry) :
    (d.putAt new m).putAt new' m' = (d.putAt new' m').putAt new m := by
  obtain ⟨-, -, -, -, text, hfile⟩ := h
  obtain ⟨-, -, -, -, text', hfile'⟩ := h'
  simp only [putAt]
  rw [Entry.put_comm hne (Entry.node?_eq_file_iff.1 hfile) (Entry.node?_eq_file_iff.1 hfile')]

end Disk

/-- The inputs of a pass in their order, with their outcomes. -/
abbrev Outcomes := List (Path × Outcome)

namespace Outcomes

/-- The disk with the results in their order. -/
def write (outcomes : Outcomes) (d : Disk) : Disk := outcomes.foldl (fun d x => x.2.write d) d

/-- The text that is written to a location last. -/
def lastText : Outcomes → List String → Option String
  | [], _ => none
  | (_, .failed _) :: rest, m => lastText rest m
  | (_, .written m' text) :: rest, m =>
    (lastText rest m).or (if m = m' then some text else none)

/-- Every result is written to a file. -/
def Holds (outcomes : Outcomes) (d : Disk) : Prop :=
  ∀ x ∈ outcomes, ∀ m text, x.2 = .written m text → d.HoldsFile m

theorem Holds.cons {x : Path × Outcome} {outcomes : Outcomes} {d : Disk}
    (h : Holds (x :: outcomes) d) :
    (∀ m text, x.2 = .written m text → d.HoldsFile m) ∧ Holds outcomes d :=
  List.forall_mem_cons.1 h

theorem Holds.putAt {outcomes : Outcomes} {d : Disk} (h : Holds outcomes d) {m : List String}
    (hm : d.HoldsFile m) (text : Option String) : Holds outcomes (d.putAt (.file text) m) :=
  fun x hx m' text' hout => (h x hx m' text' hout).grown (hm.extends_putAt text)

/-- A text that is written over is as good as none. -/
theorem write_putAt {outcomes : Outcomes} {d : Disk} (hholds : Holds outcomes d) {m : List String}
    (hm : d.HoldsFile m) {last : String} (hlast : lastText outcomes m = some last)
    (text : Option String) : write outcomes (d.putAt (.file text) m) = write outcomes d := by
  induction outcomes generalizing d with
  | nil => exact absurd hlast.symm (Option.some_ne_none _)
  | cons x outcomes ih =>
    obtain ⟨input, outcome⟩ := x
    obtain ⟨hfirst, hrest⟩ := hholds.cons
    cases outcome with
    | failed error => exact ih hrest hm hlast
    | written m' text' =>
      have hm' := hfirst m' text' rfl
      change write outcomes ((d.putAt (.file text) m).putAt (.file (some text')) m') =
        write outcomes (d.putAt (.file (some text')) m')
      by_cases hsame : m = m'
      · rw [hsame, Disk.putAt_putAt]
      · -- The text moves behind the result of the first input, and is written over later.
        rw [lastText, if_neg hsame, Option.or_none] at hlast
        rw [Disk.putAt_comm hsame hm hm']
        exact ih (hrest.putAt hm' _) (hm.grown (hm'.extends_putAt _)) hlast

/-- Writing results changes nothing on a disk that has the last text of every location. -/
theorem write_eq_self {outcomes : Outcomes} {d : Disk} (hholds : Holds outcomes d)
    (hlast : ∀ m text, lastText outcomes m = some text → d.node? m = some (.file (some text))) :
    write outcomes d = d := by
  induction outcomes with
  | nil => rfl
  | cons x outcomes ih =>
    obtain ⟨input, outcome⟩ := x
    obtain ⟨hfirst, hrest⟩ := hholds.cons
    cases outcome with
    | failed error => exact ih hrest hlast
    | written m text =>
      -- What is written last to a location is the last of the rest, if the rest writes there.
      have hrestLast : ∀ m' text', lastText outcomes m' = some text' →
          d.node? m' = some (.file (some text')) := fun m' text' h =>
        hlast m' text' (by rw [lastText, h, Option.some_or])
      change write outcomes (d.putAt (.file (some text)) m) = d
      cases hover : lastText outcomes m with
      | some later =>
        -- The disk has another text there, but this one does not stay.
        rw [write_putAt hrest (hfirst m text rfl) hover, ih hrest hrestLast]
      | none =>
        rw [Disk.putAt_eq_self (hlast m text (by rw [lastText, hover, if_pos rfl, Option.none_or])),
          ih hrest hrestLast]

/-- A location that no input writes to has no last text. -/
theorem lastText_eq_none {outcomes : Outcomes} {m : List String}
    (h : ∀ x ∈ outcomes, ∀ text, x.2 ≠ .written m text) : outcomes.lastText m = none := by
  induction outcomes with
  | nil => rfl
  | cons x outcomes ih =>
    obtain ⟨input, outcome⟩ := x
    obtain ⟨hfirst, hrest⟩ := List.forall_mem_cons.1 h
    cases outcome with
    | failed error => exact ih hrest
    | written m' text =>
      have hne : m ≠ m' := by
        rintro rfl
        exact hfirst text rfl
      rw [lastText, ih hrest, if_neg hne, Option.or_none]

theorem lastText_append {front outcomes : Outcomes} {m : List String} {text : String}
    (h : outcomes.lastText m = some text) :
    lastText (front ++ outcomes) m = some text := by
  induction front with
  | nil => exact h
  | cons x front ih =>
    obtain ⟨input, outcome⟩ := x
    cases outcome with
    | failed error => exact ih
    | written m' text' => rw [List.cons_append, lastText, ih, Option.some_or]

end Outcomes

/-! ### The report of a pass -/

/-- The failure as far as it counts. -/
def FileFailure.upTo (exact : Bool) (f : FileFailure) : FileFailure := ⟨f.file, f.error.upTo exact⟩

/-- The input and what went wrong, as far as it counts. -/
def FileResult.seen (exact : Bool) (r : FileResult) : Path × Option CompileError :=
  (r.input, r.error.map (.upTo exact))

/-- The fault to which an input came. -/
def Outcome.fault? (outcome : Outcome) : Option WordFault := outcome.error?.bind CompileError.fault?

/-- The inputs and what went wrong. -/
def Outcomes.errors (outcomes : Outcomes) : List (Path × Option CompileError) :=
  outcomes.map fun x => (x.1, x.2.error?)

namespace Pass

/-- The report with its failures as far as they count. -/
def upTo (exact : Bool) (p : Pass) : Pass :=
  { p with failures := p.failures.map (FileFailure.upTo exact) }

theorem upTo_true (p : Pass) : p.upTo true = p := by
  have hsame : FileFailure.upTo true = id := funext fun f => by
    rw [FileFailure.upTo, CompileError.upTo_true, id]
  rw [upTo, hsame, List.map_id]

/-- What counts less counts less than what counts more. -/
theorem upTo_false_upTo (exact : Bool) (p : Pass) : (p.upTo exact).upTo false = p.upTo false := by
  simp [upTo, FileFailure.upTo, CompileError.upTo_false_upTo]

/-- The failure that an input is reported with. A fault is none. -/
def failure? (x : Path × Option CompileError) : Option FileFailure :=
  if (x.2.bind CompileError.fault?).isSome then none else x.2.map fun error => ⟨x.1, error⟩

/-- The report on inputs of which this is known. -/
def ofErrors (errors : List (Path × Option CompileError)) : Pass where
  compiled := errors.countP fun x => x.2.isNone
  failures := errors.filterMap failure?
  fault := errors.findSome? fun x => x.2.bind CompileError.fault?

theorem upTo_ofResults (exact : Bool) (results : List FileResult) :
    (ofResults results).upTo exact = ofErrors (results.map (FileResult.seen exact)) := by
  have hfault : ∀ r : FileResult, ((r.error.map (CompileError.upTo exact)).bind
      CompileError.fault?) = r.fault? := fun r => by
    rw [FileResult.fault?]
    cases r.error <;> simp
  have hfailure : ∀ r : FileResult, (r.failure?.map (FileFailure.upTo exact)) =
      failure? (r.seen exact) := fun r => by
    simp only [FileResult.failure?, failure?, FileResult.seen, hfault, Option.map_map]
    split
    · rfl
    · cases r.error <;> rfl
  simp only [upTo, ofResults, ofErrors, List.countP_map, List.map_filterMap, List.filterMap_map,
    List.findSome?_map, FileResult.seen, Function.comp_def, Option.isNone_map, hfault, hfailure]

/-- The order of what is known does not count for more than the order of the failures. -/
theorem perm_ofErrors {errors errors' : List (Path × Option CompileError)}
    (h : errors.Perm errors') : (ofErrors errors).compiled = (ofErrors errors').compiled ∧
      (ofErrors errors).failures.Perm (ofErrors errors').failures :=
  ⟨h.countP_eq _, h.filterMap _⟩

/-- The pass compiled an input: it did not fail. -/
def HasCompiled (p : Pass) (input : Path) : Prop := ∀ f ∈ p.failures, f.file ≠ input

instance (p : Pass) (input : Path) : Decidable (p.HasCompiled input) :=
  inferInstanceAs (Decidable (∀ f ∈ p.failures, f.file ≠ input))

@[simp] theorem hasCompiled_upTo {exact : Bool} {p : Pass} {input : Path} :
    (p.upTo exact).HasCompiled input ↔ p.HasCompiled input := by
  simp [HasCompiled, upTo, FileFailure.upTo]

/-- Without a fault an input was compiled if nothing went wrong whenever its turn came. -/
theorem hasCompiled_ofErrors_iff {errors : List (Path × Option CompileError)}
    (hgoes : (ofErrors errors).fault = none) {input : Path} :
    (ofErrors errors).HasCompiled input ↔ ∀ x ∈ errors, x.1 = input → x.2 = none := by
  rw [ofErrors, List.findSome?_eq_none_iff] at hgoes
  simp only [HasCompiled, ofErrors, List.mem_filterMap]
  constructor
  · intro h x hx hinput
    rw [Option.eq_none_iff_forall_ne_some]
    intro error herror
    refine h ⟨x.1, error⟩ ⟨x, hx, ?_⟩ hinput
    rw [failure?, hgoes x hx, herror]
    rfl
  · rintro h f ⟨x, hx, hf⟩ hfile
    rw [failure?, hgoes x hx] at hf
    obtain ⟨error, herror, rfl⟩ := Option.map_eq_some_iff.1 hf
    exact absurd (herror.symm.trans (h x hx hfile)) (Option.some_ne_none _)

end Pass

/-! ### Inputs -/

namespace PassOptions

/-- Inputs that are found in their order and outside the output directory. -/
theorem inputs_of_sorted {o : PassOptions} {d : Disk} {found : List Path}
    (hfound : (tokenExtensions.flatMap fun extension =>
      Glob.find d ⟨o.source.text ++ "/**/*." ++ extension⟩).filter isTokenFile = found)
    (hsorted : found.Pairwise fun p q => p.atMost q)
    (hkept : (found.filter fun input => !o.output.any input.startsWith) = found) :
    o.inputs d = found := by
  rw [inputs, findTokenFiles_of_sorted hfound hsorted, hkept]

/-- The output directory of a pass with inputs has a name. -/
theorem output_ne_empty {o : PassOptions} {d : Disk} {input : Path} (h : input ∈ o.inputs d)
    {output : Path} (houtput : o.output = some output) : output.isEmpty = false := by
  rw [Bool.eq_false_iff]
  intro hempty
  obtain rfl : output = ⟨""⟩ := congrArg Path.mk (String.isEmpty_iff.1 hempty)
  have hleft := (List.mem_filter.1 h).2
  rw [houtput, Option.any_some, startsWith, show (⟨""⟩ : Path).components = [] by decide] at hleft
  simp at hleft

/-- Of the compiled inputs with results at the place where an input has its, this is the last one in
the order of the pass. -/
def LastAt (o : PassOptions) (d' : Disk) (p : Pass) (order : List Path) (input last : Path) :
    Prop :=
  ∃ front back, order = front ++ last :: back ∧ p.HasCompiled last ∧
    d'.locate? (o.target last) = d'.locate? (o.target input) ∧
    ∀ later ∈ back, p.HasCompiled later →
      d'.locate? (o.target later) ≠ d'.locate? (o.target input)

theorem exists_lastAt (o : PassOptions) (d' : Disk) {p : Pass} {order : List Path} {input : Path}
    (hinput : input ∈ order) (hcompiled : p.HasCompiled input) :
    ∃ last, o.LastAt d' p order input last := by
  -- The induction forgets that the input is among the others, one at its place is enough.
  suffices h : ∀ order : List Path,
      (∃ x ∈ order, p.HasCompiled x ∧ d'.locate? (o.target x) = d'.locate? (o.target input)) →
        ∃ last, o.LastAt d' p order input last from h order ⟨input, hinput, hcompiled, rfl⟩
  clear hinput
  intro order
  induction order with
  | nil => simp
  | cons first order ih =>
    intro hsome
    by_cases hrest : ∃ x ∈ order, p.HasCompiled x ∧
        d'.locate? (o.target x) = d'.locate? (o.target input)
    · obtain ⟨last, front, back, rfl, hlast⟩ := ih hrest
      exact ⟨last, first :: front, back, rfl, hlast⟩
    · obtain ⟨x, hmem, hx⟩ := hsome
      obtain rfl | hmem := List.mem_cons.1 hmem
      · exact ⟨x, [], order, rfl, hx.1, hx.2, fun later hlater hdone heq =>
          hrest ⟨later, hlater, hdone, heq⟩⟩
      · exact absurd ⟨x, hmem, hx⟩ hrest

end PassOptions

/-! ### Running a pass -/

/-- The inputs of an order come to outcomes, as far as their turn comes: up to the first fault. -/
inductive Outcomes.Tried : List Path → Outcomes → Prop
  /-- No input is left. -/
  | nil : Tried [] []
  /-- The next input comes to an outcome, and the pass goes on. -/
  | next {input : Path} {outcome : Outcome} {order : List Path} {outcomes : Outcomes}
      (hgoes : outcome.fault? = none) (hrest : Tried order outcomes) :
      Tried (input :: order) ((input, outcome) :: outcomes)
  /-- The next input comes to a fault. -/
  | stop {input : Path} {outcome : Outcome} (hfault : outcome.fault? ≠ none) (order : List Path) :
      Tried (input :: order) [(input, outcome)]

namespace Outcomes.Tried

variable {order : List Path} {outcomes : Outcomes}

theorem mem (h : Tried order outcomes) {x : Path × Outcome} (hx : x ∈ outcomes) : x.1 ∈ order := by
  induction h with
  | nil => exact absurd hx List.not_mem_nil
  | next _ _ ih =>
    obtain rfl | hx := List.mem_cons.1 hx
    · exact List.mem_cons_self
    · exact List.mem_cons_of_mem _ (ih hx)
  | stop => exact List.mem_singleton.1 hx ▸ List.mem_cons_self

/-- Without a fault the turn of every input comes. -/
theorem map_eq (h : Tried order outcomes) (hgoes : (Pass.ofErrors outcomes.errors).fault = none) :
    outcomes.map Prod.fst = order := by
  rw [Pass.ofErrors, List.findSome?_eq_none_iff] at hgoes
  simp only [Outcomes.errors, List.forall_mem_map] at hgoes
  induction h with
  | nil => rfl
  | next _ _ ih => exact congrArg (_ :: ·) (ih (List.forall_mem_cons.1 hgoes).2)
  | stop hfault => exact absurd (List.forall_mem_singleton.1 hgoes) hfault

/-- The first fault among the inputs is reported. -/
theorem fault_eq (h : Tried order outcomes) {fault? : Path → Option WordFault}
    (hfault : ∀ x ∈ outcomes, x.2.fault? = fault? x.1) :
    (Pass.ofErrors outcomes.errors).fault = order.findSome? fault? := by
  change outcomes.errors.findSome? (fun x => x.2.bind CompileError.fault?) = _
  rw [Outcomes.errors, List.findSome?_map]
  change outcomes.findSome? (fun x => x.2.fault?) = _
  induction h with
  | nil => rfl
  | next hgoes _ ih =>
    obtain ⟨hfirst, hrest⟩ := List.forall_mem_cons.1 hfault
    rw [List.findSome?_cons, List.findSome?_cons, ih hrest, ← hfirst, hgoes]
  | stop hstops =>
    have hfirst := List.forall_mem_singleton.1 hfault
    obtain ⟨fault, hsome⟩ := Option.ne_none_iff_exists'.1 hstops
    rw [List.findSome?_cons, List.findSome?_cons, ← hfirst, hsome]

end Outcomes.Tried

namespace PassOptions

/-- The fault to which an input comes does not count less. -/
theorem fault?_of_error_eq {o : PassOptions} {error : Option CompileError} {outcome : Outcome}
    (h : error.map o.seen = outcome.error?) : error.bind CompileError.fault? = outcome.fault? := by
  rw [Outcome.fault?, ← h]
  cases error with
  | none => rfl
  | some error => exact (CompileError.fault?_upTo _ error).symm

section Running

variable [Minifier] {o : PassOptions} {d d₁ d' : Disk} {order : List Path} {outcomes : Outcomes}

/-- A pass in an order makes one disk of another, and the inputs come to these outcomes. -/
def Runs (o : PassOptions) (d : Disk) (order : List Path) (outcomes : Outcomes) (d' : Disk) : Prop :=
  ∃ results, compileFiles o.config (o.output.map asDirectory) order d = (d', results) ∧
    results.map (FileResult.seen o.outputDescends) = outcomes.errors

theorem Runs.compileEach (h : o.Runs d order outcomes d') :
    (o.compileEach order d).1 = d' ∧
      (o.compileEach order d).2.upTo o.outputDescends = Pass.ofErrors outcomes.errors := by
  obtain ⟨results, hrun, hseen⟩ := h
  simp only [PassOptions.compileEach, hrun, Pass.upTo_ofResults, hseen, true_and]

section First

variable {input : Path} {outcome : Outcome}
  (hdisk : (compileTo o.config input (o.target input) d).1 = d₁)
  (herror : (compileTo o.config input (o.target input) d).2.map o.seen = outcome.error?)
include hdisk herror

theorem Runs.next (hgoes : outcome.fault? = none) (hrest : o.Runs d₁ order outcomes d') :
    o.Runs d (input :: order) ((input, outcome) :: outcomes) d' := by
  obtain ⟨results, hrun, hseen⟩ := hrest
  have hfault := fault?_of_error_eq herror
  rw [hgoes] at hfault
  refine ⟨⟨input, o.target input, (compileTo o.config input (o.target input) d).2⟩ :: results,
    ?_, ?_⟩
  · simp only [compileFiles, outputPath_eq_target, FileResult.fault?, hfault, hdisk, hrun]
    rfl
  · rw [List.map_cons, hseen]
    exact congrArg (fun error => (input, error) :: outcomes.errors) herror

theorem Runs.stop (hfault : outcome.fault? ≠ none) (order : List Path) :
    o.Runs d (input :: order) [(input, outcome)] d₁ := by
  refine ⟨[⟨input, o.target input, (compileTo o.config input (o.target input) d).2⟩], ?_, ?_⟩
  · simp only [compileFiles, outputPath_eq_target, FileResult.fault?, fault?_of_error_eq herror,
      hdisk, Option.isSome_iff_ne_none.2 hfault, if_true]
  · exact congrArg (fun error => [(input, error)]) herror

end First

/-- A pass in an order with these outcomes made one disk of another. -/
structure Ran (o : PassOptions) (d : Disk) (order : List Path) (outcomes : Outcomes) (d' : Disk) :
    Prop where
  tried : outcomes.Tried order
  runs : o.Runs d order outcomes d'
  grown : Disk.Grown o.Makes d d'
  settled : ∀ x ∈ outcomes, o.Settled d' x.1 x.2
  kept : ∀ m node, d.node? m = some node → outcomes.lastText m = none →
    d'.node? m = some node
  last : ∀ m text, outcomes.lastText m = some text → d'.node? m = some (.file (some text))

theorem Ran.nil (d : Disk) : o.Ran d [] [] d :=
  ⟨.nil, ⟨[], rfl, rfl⟩, .refl, nofun, fun _ _ hm _ => hm, nofun⟩

/-- One more input in front. -/
theorem Ran.next {input : Path} {outcome : Outcome} (hfirst : o.Settles d input outcome d₁)
    (hgoes : outcome.fault? = none) (hrest : o.Ran d₁ order outcomes d') :
    o.Ran d (input :: order) ((input, outcome) :: outcomes) d' := by
  have hgrown : Disk.Grown o.Makes d d₁ := hfirst.grown.mono fun _ _ hmade => hmade.1
  refine ⟨.next hgoes hrest.tried, .next hfirst.disk_eq hfirst.error_eq hgoes hrest.runs,
    hgrown.trans hrest.grown, ?_, fun m node hm hlast => ?_, fun m text hlast => ?_⟩
  · -- The rest of the pass lets the disk grow, so the first outcome stays settled.
    exact List.forall_mem_cons.2 ⟨hfirst.settled.grown hrest.grown, hrest.settled⟩
  · cases outcome with
    | failed error =>
      -- A failed attempt makes nothing but directories.
      refine hrest.kept m node (hfirst.grown.kept hm ?_) hlast
      exact fun new hmade => hmade.2.resolve_right nofun
    | written m' text =>
      rw [Outcomes.lastText, Option.or_eq_none_iff] at hlast
      have hne : m ≠ m' := by
        rintro rfl
        exact absurd hlast.2 (by simp)
      refine hrest.kept m node (hfirst.grown.kept hm fun new hmade => ?_) hlast.1
      exact hmade.2.resolve_right fun ⟨_, heq⟩ => hne (Outcome.written.inj heq).1.symm
  · cases outcome with
    | failed error => exact hrest.last m text hlast
    | written m' text' =>
      rw [Outcomes.lastText, Option.or_eq_some_iff] at hlast
      obtain hlast | ⟨hnone, hsome⟩ := hlast
      · exact hrest.last m text hlast
      · rw [Option.ite_none_right_eq_some, Option.some.injEq] at hsome
        obtain ⟨rfl, rfl⟩ := hsome
        exact hrest.kept m _ (hfirst.written m text' rfl) hnone

/-- An input that comes to a fault writes nothing, and it is the last one. -/
theorem Ran.stop {input : Path} {outcome : Outcome} (hfirst : o.Settles d input outcome d')
    (hfault : outcome.fault? ≠ none) (order : List Path) :
    o.Ran d (input :: order) [(input, outcome)] d' := by
  have hfailed : ∃ error, outcome = .failed error := by
    cases outcome with
    | failed error => exact ⟨error, rfl⟩
    | written => exact absurd rfl hfault
  obtain ⟨error, rfl⟩ := hfailed
  refine ⟨.stop hfault order, .stop hfirst.disk_eq hfirst.error_eq hfault order,
    hfirst.grown.mono fun _ _ hmade => hmade.1, List.forall_mem_singleton.2 hfirst.settled,
    fun m node hm _ => ?_, nofun⟩
  exact hfirst.grown.kept hm fun new hmade => hmade.2.resolve_right nofun

/-- Every pass over inputs that the disk provides comes to outcomes. -/
theorem exists_ran (houtput : ∀ output, o.output = some output → output.isEmpty = false)
    (horder : ∀ input ∈ order, d.Provides input) : ∃ outcomes d', o.Ran d order outcomes d' := by
  induction order generalizing d with
  | nil => exact ⟨[], d, .nil d⟩
  | cons input order ih =>
    obtain ⟨hinput, hrest⟩ := List.forall_mem_cons.1 horder
    obtain ⟨outcome, d₁, hfirst⟩ := exists_settles hinput houtput
    by_cases hgoes : outcome.fault? = none
    · obtain ⟨outcomes, d', hran⟩ := ih fun input hmem => (hrest input hmem).grown hfirst.grown
      exact ⟨(input, outcome) :: outcomes, d', .next hfirst hgoes hran⟩
    · exact ⟨[(input, outcome)], d₁, .stop hfirst hgoes order⟩

/-- Outcomes that are settled come about in every pass. -/
theorem runs_settled (htried : outcomes.Tried order) (h : ∀ x ∈ outcomes, o.Settled d x.1 x.2) :
    o.Runs d order outcomes (outcomes.write d) := by
  induction htried generalizing d with
  | nil => exact ⟨[], rfl, rfl⟩
  | @next input outcome order outcomes hgoes _ ih =>
    obtain ⟨hfirst, hrest⟩ := List.forall_mem_cons.1 h
    obtain ⟨hdisk, herror, hwritten⟩ := hfirst d .refl
    have hgrown : Disk.Grown o.Makes d (outcome.write d) := by
      cases houtcome : outcome with
      | failed error => exact .refl
      | written m text =>
        obtain ⟨hholds, hmakes, -⟩ := hwritten m text houtcome
        exact hholds.grown_putAt hmakes
    exact .next hdisk herror hgoes (ih fun x hmem => (hrest x hmem).grown hgrown)
  | stop hfault order =>
    obtain ⟨hdisk, herror, -⟩ := List.forall_mem_singleton.1 h d .refl
    exact .stop hdisk herror hfault order

/-- After a pass the same inputs in the same order have the same outcomes, and change nothing. -/
theorem Ran.again (h : o.Ran d order outcomes d') : o.Runs d' order outcomes d' := by
  have hholds : outcomes.Holds d' := fun x hmem m text houtcome =>
    ((h.settled x hmem d' .refl).written m text houtcome).1
  have hruns := runs_settled h.tried h.settled
  rwa [Outcomes.write_eq_self hholds h.last] at hruns

/-- An input was compiled exactly if its result was written. -/
theorem Ran.hasCompiled_iff (h : o.Ran d order outcomes d')
    (hgoes : (Pass.ofErrors outcomes.errors).fault = none) {x : Path × Outcome}
    (hx : x ∈ outcomes) :
    (Pass.ofErrors outcomes.errors).HasCompiled x.1 ↔ x.2.error? = none := by
  rw [Pass.hasCompiled_ofErrors_iff hgoes]
  simp only [Outcomes.errors, List.forall_mem_map]
  refine ⟨fun hall => hall x hx rfl, fun hnone y hy hfile => ?_⟩
  -- One input cannot come to both outcomes.
  have hx' := (h.settled x hx d' .refl).error_eq
  have hy' := (h.settled y hy d' .refl).error_eq
  rw [← hy', hfile, hx', hnone]

/-- The report counts the inputs that were compiled. -/
theorem Ran.compiled_eq (h : o.Ran d order outcomes d')
    (hgoes : (Pass.ofErrors outcomes.errors).fault = none) :
    (Pass.ofErrors outcomes.errors).compiled = order.countP fun input =>
      (Pass.ofErrors outcomes.errors).HasCompiled input := by
  have hcount : (Pass.ofErrors outcomes.errors).compiled =
      outcomes.countP fun x => x.2.error?.isNone := by
    rw [Pass.ofErrors, Outcomes.errors, List.countP_map]
    rfl
  rw [hcount, ← h.tried.map_eq hgoes, List.countP_map]
  refine List.countP_congr fun x hx => ?_
  simp [h.hasCompiled_iff hgoes hx]

/-! ### Passes over a file tree -/

theorem exists_ran_inputs (htree : d.IsFileTree) (horder : order.Perm (o.inputs d)) :
    ∃ outcomes d', o.Ran d order outcomes d' := by
  have hinputs : ∀ input ∈ order, input ∈ o.inputs d := fun input => horder.mem_iff.1
  cases order with
  | nil => exact ⟨[], d, .nil d⟩
  | cons first order =>
    exact exists_ran (fun output => output_ne_empty (hinputs first List.mem_cons_self))
      fun input hmem => Disk.provides_of_mem htree (hinputs input hmem)

/-! ### Faults -/

/-- The fault to which compiling an input comes. -/
def fault? (o : PassOptions) (d : Disk) (input : Path) : Option WordFault :=
  match compileFile d o.config input with
  | .error error => error.fault?
  | .ok _ => none

/-- An input comes to a fault exactly if compiling it does. -/
theorem ComesTo.fault?_eq {input : Path} {outcome : Outcome}
    (h : o.ComesTo d input outcome) (hsame : ¬ (o.target input).same input = true) :
    outcome.fault? = o.fault? d input := by
  have herror := fault?_of_error_eq h.error_eq
  simp only [compileTo, if_neg hsame] at herror
  rw [fault?, ← herror]
  cases compileFile d o.config input with
  | error error => rfl
  | ok text =>
    dsimp only
    cases (d.save (o.target input) text).2 <;> rfl

omit [Minifier] in
theorem isTokenFile_of_same {p q : Path} (h : p.same q = true) : isTokenFile p = isTokenFile q := by
  rw [same, beq_iff_eq] at h
  simp only [isTokenFile, extension?, fileName?, h]

omit [Minifier] in
/-- No result is written over its own input. -/
theorem not_same_target (htree : d.IsFileTree) {input : Path} (hinput : input ∈ o.inputs d) :
    ¬ (o.target input).same input = true := by
  intro hsame
  have hprovides := Disk.provides_of_mem htree hinput
  obtain ⟨front, name, hends⟩ := hprovides.endsIn
  have hresult := isTokenFile_target (fun output => output_ne_empty hinput) hends
  rw [isTokenFile_of_same hsame, hprovides.token] at hresult
  exact Bool.noConfusion hresult

/-- The fault of the first input that comes to one is the fault of the pass. -/
theorem Ran.fault_eq (h : o.Ran d order outcomes d') (htree : d.IsFileTree)
    (horder : ∀ input ∈ order, input ∈ o.inputs d) :
    (o.compileEach order d).2.fault = order.findSome? (o.fault? d) := by
  -- A fault is reported whatever else counts.
  have hreport := congrArg Pass.fault h.runs.compileEach.2
  refine hreport.trans (h.tried.fault_eq fun x hx => ?_)
  have hinput := horder x.1 (h.tried.mem hx)
  have hcompile := compileFile_grown (Disk.provides_of_mem htree hinput) h.grown
  rw [(h.settled x hx d' .refl).fault?_eq (not_same_target htree hinput), fault?, fault?, hcompile]

/-! ### Results at one place -/

/-- What a pass over inputs with these outcomes leaves at the place of a result. -/
theorem Ran.read?_target (h : o.Ran d order outcomes d')
    (hgoes : (Pass.ofErrors outcomes.errors).fault = none) {input last : Path}
    (hlast : o.LastAt d' (Pass.ofErrors outcomes.errors) order input last) :
    ∃ text, compileFile d' o.config last = .ok text ∧ d'.read? (o.target input) = some text := by
  obtain ⟨front, back, hsplit, hcompiled, hsame, hlater⟩ := hlast
  rw [← h.tried.map_eq hgoes] at hsplit
  obtain ⟨before, rest, rfl, -, hrest⟩ := List.map_eq_append_iff.1 hsplit
  obtain ⟨⟨last, outcome⟩, after, rfl, rfl, rfl⟩ := List.map_eq_cons_iff.1 hrest
  have hmem : (last, outcome) ∈ before ++ (last, outcome) :: after := by simp
  have hnone := (h.hasCompiled_iff hgoes hmem).1 hcompiled
  cases outcome with
  | failed error => exact absurd hnone (Option.some_ne_none _)
  | written m text =>
    obtain ⟨-, -, hcompile, hlocate⟩ := (h.settled _ hmem d' .refl).written m text rfl
    refine ⟨text, hcompile, ?_⟩
    -- A later result at this location would be one at the place of the input.
    have hafter : Outcomes.lastText after m = none := by
      refine Outcomes.lastText_eq_none fun x hx text' hwritten => ?_
      have hx' : x ∈ before ++ (last, .written m text) :: after := by simp [hx]
      have hplace := ((h.settled x hx' d' .refl).written m text' hwritten).2.2.2
      refine hlater x.1 (List.mem_map_of_mem hx) ?_
        (hplace.trans (hlocate.symm.trans hsame))
      rw [h.hasCompiled_iff hgoes hx', hwritten]
      rfl
    have htext : Outcomes.lastText ((last, .written m text) :: after) m = some text := by
      rw [Outcomes.lastText, hafter, if_pos rfl, Option.none_or]
    rw [Disk.read?_eq, ← hsame, hlocate, Option.bind_some,
      h.last m text (Outcomes.lastText_append htext)]
    rfl

/-- A pass ends at the first input that comes to a fault. If there is none, it counts the inputs
that it compiled. Where results of several of them are written to one place, each of these inputs
finds there the result of the last one in the order of the pass, and so its own if no later one has
its result there. -/
theorem last_result_stays (htree : d.IsFileTree) (o : PassOptions) {order : List Path}
    (horder : order.Perm (o.inputs d)) {d' : Disk} {p : Pass}
    (hpass : o.compileEach order d = (d', p)) :
    p.fault = order.findSome? (o.fault? d) ∧
    (p.fault = none →
      (p.compiled = order.countP fun input => p.HasCompiled input) ∧
      ∀ input ∈ order, p.HasCompiled input →
        (∃ last, o.LastAt d' p order input last) ∧
          ∀ last, o.LastAt d' p order input last →
            ∃ text, compileFile d o.config last = .ok text ∧
              d'.read? (o.target input) = some text) := by
  obtain ⟨outcomes, d₁, hran⟩ := exists_ran_inputs htree horder
  have hfault := hran.fault_eq htree fun input => horder.mem_iff.1
  obtain ⟨hdisk, hreport⟩ := hran.runs.compileEach
  rw [hpass] at hfault hdisk hreport
  obtain rfl : d' = d₁ := hdisk
  refine ⟨hfault, fun hnone => ?_⟩
  -- What is said of the report does not depend on reasons.
  have hgoes : (Pass.ofErrors outcomes.errors).fault = none := by rw [← hreport]; exact hnone
  have hcompiled : ∀ input, p.HasCompiled input ↔
      (Pass.ofErrors outcomes.errors).HasCompiled input := fun input => by
    rw [← hreport, Pass.hasCompiled_upTo]
  have hcount : p.compiled = (Pass.ofErrors outcomes.errors).compiled := by rw [← hreport]; rfl
  refine ⟨by simp only [hcount, hran.compiled_eq hgoes, hcompiled], fun input hinput hdone =>
    ⟨exists_lastAt o _ hinput hdone, fun last hlast => ?_⟩⟩
  have hlastInput : last ∈ order := by
    obtain ⟨front, back, rfl, -⟩ := hlast
    simp
  simp only [LastAt, hcompiled] at hlast
  obtain ⟨text, hcompile, hread⟩ := hran.read?_target hgoes hlast
  have hprovides := Disk.provides_of_mem htree (horder.mem_iff.1 hlastInput)
  exact ⟨text, (compileFile_grown hprovides hran.grown).symm.trans hcompile, hread⟩

end Running

section Same

open scoped Minifier

/-- Two token files with one stem: a tree with keyframes, and the empty tree. -/
def sameStem : Disk where
  root := .directory [("a.json", .file (some "[[\"keyframes\", \"a\", []]]")),
    ("a.json5", .file (some "[]"))]

theorem inputs_sameStem :
    ({} : PassOptions).inputs sameStem = [⟨"a.json"⟩, ⟨"a.json5"⟩] :=
  inputs_of_sorted (by decide +kernel) (by decide +kernel) (by decide +kernel)

/-- Both files have their result at `a.css`, where that of the later one stays. -/
theorem last_result_stays_sameStem :
    (({} : PassOptions).compileEach [⟨"a.json"⟩, ⟨"a.json5"⟩] sameStem).2.compiled = 2 ∧
    ∃ text, compileFile sameStem {} ⟨"a.json5"⟩ = .ok text ∧
      (({} : PassOptions).compileEach [⟨"a.json"⟩, ⟨"a.json5"⟩] sameStem).1.read?
        (({} : PassOptions).target ⟨"a.json"⟩) = some text := by
  have hclean : (({} : PassOptions).compileEach [⟨"a.json"⟩, ⟨"a.json5"⟩] sameStem).2.failures =
      [] := by decide +kernel
  have hcompiled : ∀ input, (({} : PassOptions).compileEach [⟨"a.json"⟩, ⟨"a.json5"⟩]
      sameStem).2.HasCompiled input := fun input => by simp [Pass.HasCompiled, hclean]
  obtain ⟨-, hreport⟩ := last_result_stays (show sameStem.IsFileTree by decide +kernel) {}
    (show [⟨"a.json"⟩, ⟨"a.json5"⟩].Perm _ from inputs_sameStem ▸ .refl _) (Prod.eta _).symm
  obtain ⟨hcount, hplaces⟩ := hreport (by decide +kernel)
  refine ⟨hcount.trans ?_, ?_⟩
  · simp [hcompiled]
  · refine (hplaces ⟨"a.json"⟩ (by simp) (hcompiled _)).2 ⟨"a.json5"⟩
      ⟨[⟨"a.json"⟩], [], rfl, hcompiled _, congrArg _ (by decide +kernel), nofun⟩

/-- The first of two files with one stem was compiled, but its output path does not have its
result. -/
theorem sameStem_loses :
    sameStem.IsFileTree ∧ (({} : PassOptions).compileAll sameStem).2.compiled = 2 ∧
      ¬ ∀ input ∈ ({} : PassOptions).inputs sameStem,
        (({} : PassOptions).compileAll sameStem).2.HasCompiled input →
          ∃ text, compileFile sameStem {} input = .ok text ∧
            (({} : PassOptions).compileAll sameStem).1.read? (({} : PassOptions).target input) =
              some text := by
  rw [compileAll, inputs_sameStem]
  refine ⟨by decide +kernel, by decide +kernel, fun h => ?_⟩
  obtain ⟨text, hcompile, hread⟩ := h ⟨"a.json"⟩ (by simp) (by decide +kernel)
  have hown : (compileFile sameStem {} ⟨"a.json"⟩).toOption ≠ some "" := by decide +kernel
  have hthere : (({} : PassOptions).compileEach [⟨"a.json"⟩, ⟨"a.json5"⟩] sameStem).1.read?
      (({} : PassOptions).target ⟨"a.json"⟩) = some "" := by decide +kernel
  rw [hcompile] at hown
  exact hown (hread.symm.trans hthere)

end Same

/-! ### Second passes -/

/-- No name of the output directory ends like the name of a token file. -/
def OutputIsUnlisted (o : PassOptions) : Prop :=
  ∀ output ∈ o.output, ∀ name, .name name ∈ output.components → ∀ extension ∈ tokenExtensions,
    ¬ ("." ++ extension).toList <:+ name.toList

/-- Into such an output directory a pass puts nothing under the name of a token file. -/
theorem OutputIsUnlisted.unlisted {o : PassOptions} (h : o.OutputIsUnlisted) {m : List String}
    {new : Entry} (hmakes : o.Makes m new) : Glob.Unlisted m new := by
  obtain ⟨output, houtput, -, piece, hmem, hidle, hup, hlast⟩ | ⟨-, hname⟩ := hmakes
  · have hname : IsName piece := ⟨hidle, hup, not_mem_of_mem_pieces hmem⟩
    refine ⟨piece, hlast, hname, Bool.eq_false_iff.2 fun htoken => ?_⟩
    obtain ⟨stem, extension, hextension, rfl⟩ := exists_of_isTokenFile hname htoken
    refine h output houtput _ (name_mem_components hname hmem) extension hextension
      ⟨stem.toList, ?_⟩
    rw [String.append_assoc]
    exact String.toList_append.symm
  · exact hname

/-- No result of a pass is written to the path of a token file, and every token file stays as it is.
A second pass in the same order leaves the disk as the first one left it and gives the same report,
in which only the reasons for which results cannot be written may differ, and not even these unless
the output directory leads up. It has the same inputs if the name of the source directory is plain.
-/
theorem second_pass [Minifier] {d : Disk} (htree : d.IsFileTree) (o : PassOptions)
    (hout : o.OutputIsUnlisted) {order : List Path} (horder : order.Perm (o.inputs d)) :
    let first := o.compileEach order d
    let second := o.compileEach order first.1
    (∀ input ∈ order, isTokenFile (outputPath d input (o.output.map asDirectory)
        o.config.format.extension) = false) ∧
      (∀ m name, isTokenFile ⟨name⟩ = true →
        first.1.node? (m ++ [name]) = d.node? (m ++ [name])) ∧
      (second.1 = first.1 ∧ second.2.upTo false = first.2.upTo false ∧
        (o.outputDescends = true → second.2 = first.2)) ∧
      ((∀ c ∈ o.source.text.toList, Glob.IsPlain c) → o.inputs first.1 = o.inputs d) := by
  obtain ⟨outcomes, d', hran⟩ := exists_ran_inputs htree horder
  obtain ⟨hdisk, hreport⟩ := hran.runs.compileEach
  obtain ⟨hdisk', hreport'⟩ := hran.again.compileEach
  have hunlisted := hran.grown.mono fun m new hmakes => hout.unlisted hmakes
  have hsame := hreport'.trans hreport.symm
  dsimp only
  rw [hdisk]
  refine ⟨fun input hmem => ?_, fun m name htoken => ?_, ⟨hdisk', ?_, fun hdescends => ?_⟩,
    fun hplain => ?_⟩
  · have hinput := horder.mem_iff.1 hmem
    obtain ⟨front, name, hends⟩ := (Disk.provides_of_mem htree hinput).endsIn
    rw [outputPath_eq_target]
    exact isTokenFile_target (fun output => output_ne_empty hinput) hends
  · refine hunlisted.node?_eq ?_
    rintro new ⟨name', hlast, -, hnot⟩
    rw [List.getLast?_concat, Option.some.injEq] at hlast
    exact absurd (htoken.symm.trans (hlast ▸ hnot)) (by simp)
  · have hless := congrArg (Pass.upTo false) hsame
    rwa [Pass.upTo_false_upTo, Pass.upTo_false_upTo] at hless
  · rwa [hdescends, Pass.upTo_true, Pass.upTo_true] at hsame
  · obtain hnone | hagain := findTokenFiles_grown hunlisted hplain
    · -- Without inputs the pass made nothing, so nothing can be found now.
      have hnil : o.inputs d = [] := by rw [inputs, hnone, List.filter_nil]
      rw [hnil, List.perm_nil] at horder
      subst horder
      rw [← hdisk]
      rfl
    · rw [inputs, inputs, hagain]

section Patterns

open scoped Minifier

/-- A token file beside a directory with one that is none. -/
def nestedDisk : Disk where
  root := .directory [("a.json", .file (some "[]")),
    ("b", .directory [("a.json5", .file (some "["))])]

/-- JSON results are written into a directory inside the source directory. -/
def nestedPass : PassOptions where
  output := some ⟨"out"⟩
  config := { format := .json }

theorem inputs_nestedPass : nestedPass.inputs nestedDisk = [⟨"a.json"⟩, ⟨"b/a.json5"⟩] :=
  inputs_of_sorted (by decide +kernel) (by decide +kernel) (by decide +kernel)

/-- The second pass finds and does what the first did, which compiled one of two files. -/
theorem second_pass_nested :
    (nestedPass.compileEach [⟨"b/a.json5"⟩, ⟨"a.json"⟩] nestedDisk).2.compiled = 1 ∧
    nestedPass.compileEach [⟨"b/a.json5"⟩, ⟨"a.json"⟩]
        (nestedPass.compileEach [⟨"b/a.json5"⟩, ⟨"a.json"⟩] nestedDisk).1 =
      nestedPass.compileEach [⟨"b/a.json5"⟩, ⟨"a.json"⟩] nestedDisk ∧
    nestedPass.inputs (nestedPass.compileEach [⟨"b/a.json5"⟩, ⟨"a.json"⟩] nestedDisk).1 =
      [⟨"a.json"⟩, ⟨"b/a.json5"⟩] := by
  have hout : nestedPass.OutputIsUnlisted := by
    rintro _ ⟨⟩ name hname
    rw [show (⟨"out"⟩ : Path).components = [.name "out"] by decide, List.mem_singleton] at hname
    obtain rfl := Component.name.inj hname
    decide
  have hplain : ∀ c ∈ nestedPass.source.text.toList, Glob.IsPlain c := by
    rw [show nestedPass.source.text.toList = ['.'] by decide, List.forall_mem_singleton]
    decide
  obtain ⟨-, -, ⟨hdisk, -, hreport⟩, hinputs⟩ := second_pass
    (show nestedDisk.IsFileTree by decide +kernel) nestedPass hout
    (show [⟨"b/a.json5"⟩, ⟨"a.json"⟩].Perm (nestedPass.inputs nestedDisk) from
      inputs_nestedPass ▸ List.Perm.swap _ _ _)
  exact ⟨by decide +kernel, Prod.ext hdisk (hreport (by decide)),
    (hinputs hplain).trans inputs_nestedPass⟩

/-- Two directories, one of them with a name that is a pattern. -/
def patternDisk : Disk where
  root := .directory [("*", .directory [("keep.txt", .file (some ""))]),
    ("art", .directory [("a.json", .file (some "[]"))])]

/-- The source directory is reached through the one with that name. -/
def patternPass : PassOptions where
  source := ⟨"*/../art"⟩
  output := some ⟨"./out"⟩

theorem inputs_patternPass :
    patternPass.inputs patternDisk = [⟨"*/../art/a.json"⟩, ⟨"art/../art/a.json"⟩] :=
  inputs_of_sorted (by decide +kernel) (by decide +kernel) (by decide +kernel)

/-- The pattern also matches the output directory, so a second pass finds and compiles more. -/
theorem patternPass_finds_more :
    patternDisk.IsFileTree ∧ patternPass.OutputIsUnlisted ∧
      patternPass.inputs (patternPass.compileAll patternDisk).1 =
        patternPass.inputs patternDisk ++ [⟨"out/../art/a.json"⟩] ∧
      (patternPass.compileAll patternDisk).2.compiled = 2 ∧
      (patternPass.compileAll (patternPass.compileAll patternDisk).1).2.compiled = 3 := by
  have hagain : patternPass.inputs (patternPass.compileEach
      [⟨"*/../art/a.json"⟩, ⟨"art/../art/a.json"⟩] patternDisk).1 =
      [⟨"*/../art/a.json"⟩, ⟨"art/../art/a.json"⟩, ⟨"out/../art/a.json"⟩] :=
    inputs_of_sorted (by decide +kernel) (by decide +kernel) (by decide +kernel)
  refine ⟨by decide +kernel, ?_, ?_, ?_, ?_⟩
  · rintro _ ⟨⟩ name hname
    rw [show (⟨"./out"⟩ : Path).components = [.here, .name "out"] by decide, List.mem_cons,
      List.mem_singleton] at hname
    obtain rfl := Component.name.inj (hname.resolve_left nofun)
    decide
  · rw [compileAll, inputs_patternPass, hagain]
    rfl
  · rw [compileAll, inputs_patternPass]
    decide +kernel
  · rw [compileAll, compileAll, inputs_patternPass, hagain]
    decide +kernel

end Patterns

end PassOptions

end GridStyle
