import GridStyle.Pass
import GridStyle.Proofs.Files.SecondSearch

/-!
# Where Results Are Written

The result of an input is a file in the output directory, or in the directory of the input without
one. Its name is made of the stem of the input and the extension of the format, and it is never that
of a token file (`isTokenFile_target`).
-/

namespace GridStyle

open GridStyle.Path

/-! ### Names of results -/

/-- A name is put together from its stem and its extension. -/
theorem Path.eq_of_cutName {name stem extension : String}
    (h : cutName name = (stem, some extension)) : name = stem ++ "." ++ extension := by
  unfold cutName at h
  dsimp only at h
  split at h
  · exact absurd (congrArg Prod.snd h).symm (Option.some_ne_none _)
  · exact absurd (congrArg Prod.snd h).symm (Option.some_ne_none _)
  · next point rest _ hdrop =>
    obtain ⟨rfl, hextension⟩ := Prod.mk.inj h
    rw [Option.some.injEq] at hextension
    subst hextension
    have hpoint : point = '.' := by
      have hhead := List.head?_dropWhile_not (· != '.') name.toList.reverse
      rw [hdrop] at hhead
      simpa using hhead
    have hsplit := List.takeWhile_append_dropWhile (p := (· != '.')) (l := name.toList.reverse)
    rw [hdrop, hpoint, ← List.reverse_eq_iff, List.reverse_append, List.reverse_cons] at hsplit
    apply String.toList_injective
    simp only [String.toList_append, String.toList_ofList]
    exact hsplit.symm

/-- The name of a token file is its stem with one of the extensions. -/
theorem name_of_isTokenFile {name : String} (hname : IsName name)
    (h : isTokenFile ⟨name⟩ = true) :
    ∃ extension ∈ tokenExtensions, name = (cutName name).1 ++ "." ++ extension := by
  rw [isTokenFile, extension?, (endsIn_name hname).fileName?_eq, Bool.and_eq_true,
    Option.bind_some, Option.any_eq_true] at h
  obtain ⟨-, extension, hextension, hmem⟩ := h
  exact ⟨extension, by simpa using hmem, eq_of_cutName (Prod.ext rfl hextension)⟩

theorem exists_of_isTokenFile {name : String} (hname : IsName name)
    (h : isTokenFile ⟨name⟩ = true) :
    ∃ stem, ∃ extension ∈ tokenExtensions, name = stem ++ "." ++ extension :=
  ⟨_, name_of_isTokenFile hname h⟩

/-- No result has the name of a token file. -/
theorem isTokenFile_result {stem : String} {format : OutputFormat}
    (hname : IsName (stem ++ "." ++ format.extension)) :
    isTokenFile ⟨stem ++ "." ++ format.extension⟩ = false := by
  cases format with
  | css =>
    rw [Bool.eq_false_iff]
    intro htoken
    obtain ⟨stem', extension, hmem, heq⟩ := exists_of_isTokenFile hname htoken
    have hlast := congrArg (fun text : String => text.toList.getLast?) heq
    simp only [tokenExtensions, List.mem_cons, List.not_mem_nil, or_false] at hmem
    obtain rfl | rfl := hmem <;> simp [OutputFormat.extension, List.getLast?_append] at hlast
  | json =>
    have hsuffix : resultSuffix.toList.isSuffixOf
        (stem ++ "." ++ OutputFormat.json.extension).toList = true := by
      rw [List.isSuffixOf_iff_suffix]
      exact ⟨stem.toList, by simp [resultSuffix, OutputFormat.extension, String.toList_append]⟩
    rw [isTokenFile, (endsIn_name hname).fileName?_eq, Option.any_some, hsuffix]
    rfl

theorem Path.mem_of_mem_stem {name : String} {c : Char} (hc : c ∈ (cutName name).1.toList) :
    c ∈ name.toList := by
  cases hcut : cutName name with
  | mk stem extension =>
    rw [hcut] at hc
    cases extension with
    | some extension =>
      rw [eq_of_cutName hcut]
      simp [String.toList_append, show c ∈ stem.toList from hc]
    | none =>
      unfold cutName at hcut
      dsimp only at hcut
      split at hcut
      · exact (Prod.mk.inj hcut).1 ▸ hc
      · exact (Prod.mk.inj hcut).1 ▸ hc
      · exact absurd (Prod.mk.inj hcut).2 (Option.some_ne_none _)

/-- The stem of a name is a name with every extension of results. -/
theorem isName_result {name : String} (hname : IsName name) (format : OutputFormat) :
    IsName ((cutName name).1 ++ "." ++ format.extension) := by
  -- The name ends in a letter.
  have hne : ∀ other : String, other.toList.getLast? ≠ format.extension.toList.getLast? →
      (cutName name).1 ++ "." ++ format.extension ≠ other := by
    rintro other hlast rfl
    refine hlast ?_
    rw [String.toList_append, List.getLast?_append]
    cases format <;> rfl
  refine ⟨?_, ?_, ?_⟩
  · rw [isIdle, Bool.or_eq_false_iff, beq_eq_false_iff_ne, beq_eq_false_iff_ne]
    constructor <;> refine hne _ ?_ <;> cases format <;> decide
  · refine hne _ ?_
    cases format <;> decide
  · have hextension : '/' ∉ format.extension.toList := by cases format <;> decide
    rw [String.toList_append, String.toList_append, List.mem_append, List.mem_append, not_or,
      not_or]
    exact ⟨⟨fun hslash => hname.noSlash (mem_of_mem_stem hslash), by decide⟩, hextension⟩

/-! ### Paths of results -/

/-- Nothing but the empty path stays without a slash at its end. -/
theorem namesDirectory_asDirectory (d : Disk) (output : Path) :
    namesDirectory d output.asDirectory = !output.isEmpty := by
  rw [namesDirectory, asDirectory, join, isAbsolute_name (by decide), if_neg Bool.false_ne_true]
  cases hempty : output.isEmpty with
  | true =>
    have htext : output.text = "" := String.isEmpty_iff.1 hempty
    have hnone : d.locate? ⟨""⟩ = none := rfl
    simp [htext, Disk.isDirectory, Disk.entry?, hnone, endsWithSlash]
  | false =>
    rw [Bool.false_or, Bool.not_false, Bool.or_eq_true]
    left
    split
    · next hslash => simpa using hslash
    · simp [endsWithSlash, String.toList_append]

namespace PassOptions

/-- Where a pass writes the result of an input. -/
def target (o : PassOptions) (input : Path) : Path :=
  outputPath {} input (o.output.map asDirectory) o.config.format.extension

/-- The disk has no say in it. -/
theorem outputPath_eq_target (o : PassOptions) (d : Disk) (input : Path) :
    outputPath d input (o.output.map asDirectory) o.config.format.extension = o.target input := by
  cases houtput : o.output with
  | none => simp [target, outputPath, houtput]
  | some output => simp [target, outputPath, houtput, namesDirectory_asDirectory]

/-- The name of the result of an input. -/
def resultOf (o : PassOptions) (input : Path) : String :=
  (resultName input o.config.format.extension).text

variable {o : PassOptions} {input : Path} {front : List String} {name : String}

theorem resultOf_eq (o : PassOptions) (h : input.EndsIn front name) :
    o.resultOf input = (cutName name).1 ++ "." ++ o.config.format.extension := by
  rw [resultOf, resultName, stem?, h.fileName?_eq]
  rfl

theorem isName_resultOf (o : PassOptions) (h : input.EndsIn front name) :
    IsName (o.resultOf input) :=
  resultOf_eq o h ▸ isName_result h.1 o.config.format

theorem isTokenFile_resultOf (o : PassOptions) (h : input.EndsIn front name) :
    isTokenFile ⟨o.resultOf input⟩ = false :=
  resultOf_eq o h ▸ isTokenFile_result (isName_result h.1 o.config.format)

/-- Without an output directory the result is in the directory of the input. -/
theorem exists_pieces_target_of_none (houtput : o.output = none) (h : input.EndsIn front name) :
    ∃ front', (o.target input).pieces = front' ++ [o.resultOf input] ∧
      ∀ d location, Disk.Reaches d input front location →
        Disk.Reaches d (o.target input) front' location := by
  have hslash := (isName_resultOf o h).noSlash
  obtain ⟨rfl, hparent⟩ | ⟨above, hparent, hempty, habsolute, hsame⟩ := h.parent?_cases
  · have htarget : o.target input = ⟨o.resultOf input⟩ := by
      simp only [target, outputPath, houtput, Option.map_none, hparent]
      exact empty_join hslash
    have hrelative : input.isAbsolute = false := by
      obtain ⟨hname, idle, -, hpieces⟩ := h
      exact isAbsolute_eq_false hpieces hname.ne_empty
    refine ⟨[], by rw [htarget, pieces_name hslash]; rfl, fun d location hreaches => ?_⟩
    rwa [Disk.Reaches, htarget, Disk.start_eq ((isAbsolute_name hslash).trans hrelative.symm)]
  · have htarget : o.target input = above.join ⟨o.resultOf input⟩ := by
      simp only [target, outputPath, houtput, Option.map_none, hparent]
      rfl
    obtain ⟨front', hpieces, habove⟩ := pieces_join hempty hslash
    refine ⟨front', htarget ▸ hpieces, fun d location hreaches => ⟨?_, hreaches.2⟩⟩
    have hwalk := Disk.walk_sameWay (.of_empty habove)
      (hreaches.walk_above habsolute hsame) hreaches.2
    rwa [htarget, Disk.start_eq (isAbsolute_join hempty hslash)]

/-- In an output directory the result is told by its name. -/
theorem target_of_some {output : Path} (houtput : o.output = some output)
    (hempty : output.isEmpty = false) (input : Path) :
    o.target input = output.asDirectory.join ⟨o.resultOf input⟩ := by
  simp only [target, outputPath, houtput, Option.map_some, namesDirectory_asDirectory, hempty]
  rfl

/-- The pieces in front of a result in an output directory are those of the directory. -/
theorem exists_pieces_target_of_some {output : Path} (houtput : o.output = some output)
    (hempty : output.isEmpty = false) (h : input.EndsIn front name) :
    ∃ front', (o.target input).pieces = front' ++ [o.resultOf input] ∧
      ∀ piece ∈ front', isIdle piece = false → piece ∈ output.pieces := by
  have hslash := (isName_resultOf o h).noSlash
  obtain ⟨base, hdirectory, hbase⟩ := pieces_join hempty (show '/' ∉ "".toList by decide)
  have hempty' : output.asDirectory.isEmpty = false := isEmpty_join hempty (by decide)
  obtain ⟨front', hpieces, hfront⟩ := pieces_join hempty' hslash
  refine ⟨front', target_of_some houtput hempty input ▸ hpieces, fun piece hmem hidle => ?_⟩
  have hjoined := (SameWay.of_empty hfront).symm.mem hidle hmem
  rw [asDirectory, hdirectory] at hjoined
  have hin : piece ∈ base := (SameWay.of_empty (.inr rfl)).mem hidle hjoined
  exact (SameWay.of_empty hbase).symm.mem hidle hin

/-- No result is written under the name of a token file. -/
theorem isTokenFile_target (houtput : ∀ output, o.output = some output → output.isEmpty = false)
    (h : input.EndsIn front name) : isTokenFile (o.target input) = false := by
  have htarget : ∃ front', (o.target input).pieces = front' ++ [o.resultOf input] := by
    cases hsome : o.output with
    | none =>
      obtain ⟨front', hpieces, -⟩ := exists_pieces_target_of_none hsome h
      exact ⟨front', hpieces⟩
    | some output =>
      obtain ⟨front', hpieces, -⟩ := exists_pieces_target_of_some hsome (houtput output hsome) h
      exact ⟨front', hpieces⟩
  obtain ⟨front', hpieces⟩ := htarget
  have hends : (o.target input).EndsIn front' (o.resultOf input) :=
    ⟨isName_resultOf o h, [], by simp [AllIdle], hpieces⟩
  exact (isTokenFile_of_endsIn hends).trans (isTokenFile_resultOf o h)

end PassOptions

end GridStyle
