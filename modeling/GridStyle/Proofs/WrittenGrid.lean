import GridStyle.Command.Run
import GridStyle.Proofs.WholeNumber

/-!
# Written Grids

A grid text is written with one to three positive whole numbers of 32 bits, with `x` or `X` between
them and blanks around each (`WritesGrid`). These are the texts that `isGridText` accepts, and
`GridSize.ofText` reads from them the numbers that are written, all of them, and clamps these
(`GridSize.ofNumbers`). So settings that were loaded and overridden with an accepted grid have no
problems, and their grid is the one that is written (`grid_texts_agree`).
-/

namespace GridStyle

open Text

/-- A side is written with a positive number of 32 bits between blanks. -/
inductive WritesSide (n : Nat) : List Char → Prop
  | intro {front core back : List Char} (hfront : ∀ c ∈ front, isBlank c = true)
    (hback : ∀ c ∈ back, isBlank c = true) (hcore : Decimal.WritesUnsigned n core) (hpos : 0 < n)
    (hlt : n < 2 ^ 32) : WritesSide n (front ++ (core ++ back))

/-- Sides are written one after the other, with a large or small `x` in between. -/
inductive WritesSides : List Nat → List Char → Prop
  | last {n : Nat} {cs : List Char} (h : WritesSide n cs) : WritesSides [n] cs
  | cons {n : Nat} {cs : List Char} {x : Char} {ns : List Nat} {rest : List Char}
    (h : WritesSide n cs) (hx : x = 'x' ∨ x = 'X') (hrest : WritesSides ns rest) :
    WritesSides (n :: ns) (cs ++ x :: rest)

/-- The text writes a grid with one, two or three numbers. -/
structure WritesGrid (text : String) (a : Nat) (b c : Option Nat) : Prop where
  /-- There is a third number only behind a second one. -/
  isSome_of_isSome : c.isSome → b.isSome
  /-- The numbers are written in this order. -/
  sides : WritesSides (a :: (b.toList ++ c.toList)) text.toList

/-- The grid of one, two or three numbers. A missing column count is the row count. -/
def GridSize.ofNumbers (a : Nat) (b c : Option Nat) : GridSize :=
  let limit := if a = 1 ∨ b = some 1 then 256 else 64
  let x := min a limit
  let y := min (b.getD a) limit
  ⟨x, y, min (c.getD 1) (if x = 1 ∧ y = 1 then 256 else 1)⟩

/-! ### Sides -/

/-- A side is written exactly by what the reader of unsigned numbers takes. -/
theorem writesSide_iff {n : Nat} {cs : List Char} :
    WritesSide n cs ↔ Decimal.readUnsigned (Nat.pow 2 32) (trim cs) = some n ∧ 0 < n := by
  rw [Decimal.readUnsigned_eq_some_iff]
  constructor
  · rintro ⟨hfront, hback, hcore, hpos, hlt⟩
    rw [trim_blanks_append hfront, trim_append_blanks hback,
      trim_of_not_isBlank hcore.not_isBlank]
    exact ⟨⟨hcore, hlt⟩, hpos⟩
  · rintro ⟨⟨hcore, hlt⟩, hpos⟩
    obtain ⟨front, back, heq, hfront, hback⟩ := exists_eq_append_trim cs
    rw [heq]
    exact ⟨hfront, hback, hcore, hpos, hlt⟩

/-- The separators of written sides. -/
def isLetterX (c : Char) : Bool := c == 'x' || c == 'X'

theorem not_isLetterX_of_isBlank {c : Char} (h : isBlank c = true) : isLetterX c = false := by
  rw [isLetterX, Bool.or_eq_false_iff, beq_eq_false_iff_ne, beq_eq_false_iff_ne]
  constructor
  · rintro rfl
    exact absurd h (by decide)
  · rintro rfl
    exact absurd h (by decide)

theorem WritesSide.not_isLetterX {n : Nat} {cs : List Char} (h : WritesSide n cs) :
    ∀ c ∈ cs, isLetterX c = false := by
  obtain ⟨hfront, hback, hcore, -, -⟩ := h
  intro c hc
  rw [List.mem_append, List.mem_append] at hc
  rcases hc with hc | hc | hc
  · exact not_isLetterX_of_isBlank (hfront c hc)
  · rcases hcore.of_mem hc with hdigit | rfl
    · simp [isLetterX, Decimal.ne_of_isDigit hdigit]
    · decide
  · exact not_isLetterX_of_isBlank (hback c hc)

/-- Written sides are the parts between the separators. -/
theorem writesSides_iff {ns : List Nat} {cs : List Char} :
    WritesSides ns cs ↔ List.Forall₂ WritesSide ns (cutAt isLetterX cs) := by
  constructor
  · -- No separator is in a side, so the text is cut just where its sides meet.
    intro h
    induction h with
    | last h =>
      rw [cutAt_eq_singleton h.not_isLetterX]
      exact .cons h .nil
    | cons h hx hrest ih =>
      rw [cutAt_separator (by simpa [isLetterX] using hx), cutAt_eq_singleton h.not_isLetterX]
      exact .cons h ih
  · intro h
    induction ns generalizing cs with
    | nil => exact absurd (List.forall₂_nil_left_iff.1 h) (cutAt_ne_nil _ _)
    | cons n ns ih =>
      obtain ⟨part, parts, hcut⟩ := List.exists_cons_of_ne_nil (cutAt_ne_nil isLetterX cs)
      rw [hcut, List.forall₂_cons] at h
      obtain ⟨rfl, rfl⟩ | ⟨x, rest, rfl, hx, hrest⟩ := of_cutAt_eq_cons hcut
      · obtain rfl := List.forall₂_nil_right_iff.1 h.2
        exact .last h.1
      · exact .cons h.1 (by simpa [isLetterX] using hx) (ih (hrest ▸ h.2))

/-! ### The two readers -/

/-- A text is accepted exactly if it has one to three parts that all write a side. -/
theorem isGridText_iff_forall (text : String) :
    isGridText text = true ↔ (cutAt isLetterX text.toList).length ≤ 3 ∧
      ∀ part ∈ cutAt isLetterX text.toList, ∃ n, WritesSide n part := by
  change ((((cutAt isLetterX (trim text.toList)).map trim).length ≤ 3 : Bool) &&
    ((cutAt isLetterX (trim text.toList)).map trim).all _) = true ↔ _
  rw [map_trim_cutAt_trim fun c => not_isLetterX_of_isBlank, Bool.and_eq_true, decide_eq_true_iff,
    List.length_map, List.all_eq_true, List.forall_mem_map]
  refine and_congr_right fun _ => forall₂_congr fun part _ => ?_
  simp only [writesSide_iff]
  split
  · next n hread => simp [hread]
  · next hread => simp [hread]

/-- A text is accepted exactly if it writes a grid. -/
theorem isGridText_iff (text : String) :
    isGridText text = true ↔ ∃ a b c, WritesGrid text a b c := by
  rw [isGridText_iff_forall]
  constructor
  · rintro ⟨hlength, hparts⟩
    choose! number hnumber using hparts
    have hsides : WritesSides ((cutAt isLetterX text.toList).map number) text.toList :=
      writesSides_iff.2 (List.forall₂_map_left_iff.2 (List.forall₂_same.2 hnumber))
    rw [← List.length_map (f := number)] at hlength
    generalize (cutAt isLetterX text.toList).map number = ns at hsides hlength
    -- There are at most three numbers, and at least one.
    match ns with
    | [] => nomatch hsides
    | [a] => exact ⟨a, none, none, nofun, hsides⟩
    | [a, b] => exact ⟨a, some b, none, nofun, hsides⟩
    | [a, b, c] => exact ⟨a, some b, some c, fun _ => rfl, hsides⟩
    | _ :: _ :: _ :: _ :: _ =>
      simp only [List.length_cons] at hlength
      omega
  · rintro ⟨a, b, c, -, h⟩
    rw [writesSides_iff] at h
    constructor
    · rw [← h.length_eq]
      cases b <;> cases c <;> simp
    · generalize a :: (b.toList ++ c.toList) = ns at h
      generalize cutAt isLetterX text.toList = parts at h
      induction h with
      | nil => exact nofun
      | cons hside hrest ih => exact List.forall_mem_cons.2 ⟨⟨_, hside⟩, ih⟩

/-- A written side is read as its number. -/
theorem readSide_eq {n : Nat} {cs : List Char} (h : Decimal.WritesUnsigned n cs) (hpos : 0 < n)
    (hlt : n < 2 ^ 32) : readSide cs = some n := by
  obtain ⟨hfinite, hone, hword⟩ := Decimal.toUInt32_nearest (Nat.ne_of_gt hpos) hlt
  have hread : Decimal.readFloat cs = some (Decimal.nearest n 0) := by
    cases h with
    | plain h => rw [Decimal.readFloat_digits h.ne_nil h.isDigit, h.value]
    | plus h =>
      rw [← h.value, ← Decimal.readFloat_digits h.ne_nil h.isDigit, Decimal.readFloat,
        Decimal.readFloat, Decimal.Literal.read, Decimal.Literal.read,
        Decimal.splitSign_digits h.isDigit]
      rfl
  rw [readSide, hread, Option.bind_some, if_pos (by rw [hfinite, decide_eq_true hone]; rfl), hword]

/-- Written sides are read as their numbers, without exception. -/
theorem GridSize.sides_eq {ns : List Nat} {cs : List Char} (h : WritesSides ns cs) :
    sides cs = ns.map some := by
  -- A side is one piece without its blanks.
  have hpiece : ∀ {n cs}, WritesSide n cs → cutAt isSideSeparator (dropBlanks cs) =
      [dropBlanks cs] ∧ dropBlanks cs ≠ [] ∧ readSide (dropBlanks cs) = some n := by
    rintro n cs ⟨hfront, hback, hcore, hpos, hlt⟩
    rw [dropBlanks_between hfront hback hcore.not_isBlank]
    refine ⟨cutAt_eq_singleton fun c hc => ?_, hcore.ne_nil, readSide_eq hcore hpos hlt⟩
    rcases hcore.of_mem hc with hdigit | rfl
    · simp [isSideSeparator, Decimal.ne_of_isDigit hdigit]
    · decide
  induction h with
  | last h =>
    obtain ⟨hcut, hne, hread⟩ := hpiece h
    rw [sides, hcut, List.filter_cons_of_pos (by simpa using hne), List.filter_nil]
    simp [hread]
  | @cons n cs x ns rest h hx hrest ih =>
    obtain ⟨hcut, hne, hread⟩ := hpiece h
    have hdrop : dropBlanks (cs ++ x :: rest) = dropBlanks cs ++ x :: dropBlanks rest := by
      have hblank : isBlank x = false := by rcases hx with rfl | rfl <;> decide
      simp [dropBlanks, hblank]
    have hsep : isSideSeparator x = true := by rcases hx with rfl | rfl <;> decide
    rw [sides] at ih
    rw [sides, hdrop, cutAt_separator hsep, hcut, List.singleton_append,
      List.filter_cons_of_pos (by simpa using hne), List.map_cons, hread, ih, List.map_cons]

/-- The grid of the numbers that were read. -/
theorem GridSize.ofSides_eq {a : Nat} {b c : Option Nat} (ha : 0 < a) (hb : ∀ n ∈ b, 0 < n)
    (hc : ∀ n ∈ c, 0 < n) : ofSides (some a) b c = ofNumbers a b c := by
  have hclamp : ∀ {limit n : Nat}, 0 < n → clampSide limit n = min n limit := fun h => by
    rw [clampSide, Nat.max_eq_left h]
  have hb' : 0 < b.getD a := by
    cases b with
    | none => exact ha
    | some b => exact hb b rfl
  have hc' : 0 < c.getD 1 := by
    cases c with
    | none => exact Nat.one_pos
    | some c => exact hc c rfl
  have hor : (b.or (some a)).getD 1 = b.getD a := by cases b <;> rfl
  simp only [ofSides, ofNumbers, hor, Option.getD_some, hclamp ha, hclamp hb', hclamp hc',
    Option.some.injEq, lineLimit, sideLimit, depthLimit]

theorem WritesSides.pos {ns : List Nat} {cs : List Char} (h : WritesSides ns cs) :
    ∀ n ∈ ns, 0 < n := by
  have hside : ∀ {n cs}, WritesSide n cs → 0 < n := fun ⟨_, _, _, hpos, _⟩ => hpos
  induction h with
  | last h => simpa using hside h
  | cons h hx hrest ih => exact List.forall_mem_cons.2 ⟨hside h, ih⟩

/-- The grid that is written is read. -/
theorem WritesGrid.ofText_eq {text : String} {a : Nat} {b c : Option Nat}
    (h : WritesGrid text a b c) : GridSize.ofText text = .ofNumbers a b c := by
  have hpos := h.sides.pos
  rw [List.forall_mem_cons, List.forall_mem_append] at hpos
  have hread := GridSize.ofSides_eq hpos.1 (fun n hn => hpos.2.1 n (by simpa using hn))
    fun n hn => hpos.2.2 n (by simpa using hn)
  rw [GridSize.ofText, GridSize.sides_eq h.sides, ← hread]
  cases b with
  | some b => cases c <;> rfl
  | none =>
    cases c with
    | none => rfl
    | some c => exact absurd (h.isSome_of_isSome rfl) (by decide)

/-! ### Settings -/

namespace Config

theorem problems_eq_nil_iff (config : Config) :
    config.problems = [] ↔ isGridText config.grid = true ∧ config.debounce ≠ 0 := by
  rw [problems, List.append_eq_nil_iff]
  split <;> split <;> simp [*]

/-- Settings that were loaded have no problems. -/
theorem problems_of_load {env : Environment} {d : Disk} {file : Option Path} {config : Config}
    (h : load env d file = .ok config) : config.problems = [] := by
  rw [load] at h
  split at h
  · obtain rfl : {} = config := Except.ok.inj h
    decide
  · next file _ =>
    rw [loadFile] at h
    split at h
    · exact nomatch h
    · split at h
      · exact nomatch h
      · next c _ =>
        rw [checked] at h
        split at h
        · next hempty =>
          obtain rfl := Except.ok.inj h
          exact List.isEmpty_iff.1 hempty
        · exact nomatch h

/-- An override can only bring in a grid that is none. -/
theorem problems_override {config : Config} (h : config.problems = []) {o : Overrides}
    (hgrid : ∀ grid ∈ o.grid, isGridText grid = true) : (config.override o).problems = [] := by
  rw [problems_eq_nil_iff] at h ⊢
  refine ⟨?_, h.2⟩
  rw [override]
  cases ho : o.grid with
  | none => exact h.1
  | some grid => exact hgrid grid ho

end Config

/-- The validator and the reader of grid texts agree. Accepted are the texts that write one to three
numbers, and all numbers that are written are read and decide the grid. So the settings that
`compile` works with, loaded and with an accepted grid laid over them, have no problems, and their
grid is the one that is written. -/
theorem grid_texts_agree [Minifier] :
    (∀ text, isGridText text = true ↔ ∃ a b c, WritesGrid text a b c) ∧
    (∀ text a b c, WritesGrid text a b c →
      GridSize.sides text.toList = (a :: (b.toList ++ c.toList)).map some ∧
      GridSize.ofText text = .ofNumbers a b c) ∧
    ∀ env d (r : Command.CompileRequest) config, Config.load env d r.config = .ok config →
      (∀ grid ∈ r.grid, isGridText grid = true) →
      Command.compile env r d = Command.compileWith (config.override r.overrides) r d ∧
      (config.override r.overrides).problems = [] ∧
      ∃ a b c, WritesGrid (r.grid.getD config.grid) a b c ∧
        (config.override r.overrides).defaultGrid = .ofNumbers a b c := by
  refine ⟨isGridText_iff, fun text a b c h => ⟨GridSize.sides_eq h.sides, h.ofText_eq⟩, ?_⟩
  intro env d r config hload hgrid
  have hproblems := Config.problems_override (Config.problems_of_load hload)
    (o := r.overrides) hgrid
  obtain ⟨a, b, c, h⟩ :=
    (isGridText_iff _).1 ((Config.problems_eq_nil_iff _).1 hproblems).1
  refine ⟨?_, hproblems, a, b, c, h, h.ofText_eq⟩
  -- No grid of the command line is refused.
  have haccepted : r.grid.filter (fun grid => !isGridText grid) = none := by
    rw [Option.filter_eq_none_iff]
    intro grid hmem
    simp [hgrid grid hmem]
  rw [Command.compile, haccepted, hload]

open scoped Minifier

/-- A project with settings for a grid of six rows and four columns. -/
def sixByFour : Disk where
  root := .directory [("doodle.toml", .file (some "[grid]\ndefault = \"6x4\""))]

/-- Blanks, a plus sign, zeros in front and letters of either case write a line of columns, and a
grid of the command line counts more than that of the settings. -/
theorem grid_texts_agree_overridden :
    WritesGrid " 1 x +0300X\t2" 1 (some 300) (some 2) ∧
    GridSize.ofText " 1 x +0300X\t2" = ⟨1, 256, 1⟩ ∧
    Config.load {} sixByFour none = .ok { grid := "6x4" } ∧
    ∃ merged : Config, merged.problems = [] ∧ merged.defaultGrid = ⟨1, 1, 8⟩ ∧
      Command.compile {} { inputs := [⟨"a.json"⟩], grid := some "1x1X008" } sixByFour =
        Command.compileWith merged { inputs := [⟨"a.json"⟩], grid := some "1x1X008" } sixByFour := by
  have hside : ∀ n part, Decimal.readUnsigned (Nat.pow 2 32) (trim part) = some n ∧ 0 < n →
      WritesSide n part := fun n part => writesSide_iff.2
  have hwrites : WritesGrid " 1 x +0300X\t2" 1 (some 300) (some 2) := by
    refine ⟨fun _ => rfl, writesSides_iff.2 ?_⟩
    exact .cons (hside 1 " 1 ".toList (by decide)) (.cons (hside 300 " +0300".toList (by decide))
      (.cons (hside 2 "\t2".toList (by decide)) .nil))
  have hgrid : WritesGrid "1x1X008" 1 (some 1) (some 8) := by
    refine ⟨fun _ => rfl, writesSides_iff.2 ?_⟩
    exact .cons (hside 1 "1".toList (by decide)) (.cons (hside 1 "1".toList (by decide))
      (.cons (hside 8 "008".toList (by decide)) .nil))
  have hload : Config.load {} sixByFour none = .ok { grid := "6x4" } := rfl
  obtain ⟨hcompile, hproblems, -⟩ :=
    grid_texts_agree.2.2 {} sixByFour { inputs := [⟨"a.json"⟩], grid := some "1x1X008" } _ hload
      (by decide)
  exact ⟨hwrites, (grid_texts_agree.2.1 _ _ _ _ hwrites).2, hload, _, hproblems,
    (grid_texts_agree.2.1 _ _ _ _ hgrid).2, hcompile⟩

end GridStyle
