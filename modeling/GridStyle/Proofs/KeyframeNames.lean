import GridStyle.Proofs.AnimationNames
import GridStyle.Proofs.Digits
import Mathlib.Data.List.Nodup
import Mathlib.Data.List.Perm.Basic

/-!
# Names of Keyframes

The keyframes section has a block for every visited cell and every known definition, under a name
made of the name of the definition and the number of the cell. For the first cell it has one more,
under the plain name (`keyframes_section`).

The names that are made are different (`cellName_inj`), and so are the plain names. But the plain
name of one definition may be what is made of another: a cell's own keyframes are then written
under the plain name of others, and one of the two blocks hides the other. The names of all blocks
are different exactly if this does not happen.
-/

namespace GridStyle

open Expanding

/-- Both the name of the definition and the number of the cell can be read off a cell's name. -/
theorem Animation.cellName_inj {name name' : String} {count count' : Nat}
    (h : cellName name count = cellName name' count') : name = name' ∧ count = count' := by
  have hlist := congrArg String.toList h
  simp only [cellName, String.toList_append, List.append_assoc] at hlist
  -- The last hyphen stands in front of the number, as no digit is a hyphen.
  obtain ⟨hname, hcount⟩ := Text.append_toString_inj (by decide) hlist
  exact ⟨String.toList_inj.1 hname, hcount⟩

/-! ### Blocks -/

/-- A block of a keyframes section. -/
structure KeyframesBlock where
  /-- The name of the keyframes. -/
  name : String
  /-- Their body. -/
  body : String

/-- How a block is written. -/
def KeyframesBlock.text (b : KeyframesBlock) : String := keyframesText b.name b.body

/-- The names under which keyframes are written for a visited cell. -/
def blockNames (r : (Cell × Nat) × Keyframes) : List String :=
  (if r.1.2 = 0 then [r.2.name] else []) ++ [Animation.cellName r.2.name r.1.1.count]

/-- The blocks of keyframes that have bodies. -/
def sectionBlocks : List ((Cell × Nat) × Keyframes) → List String → List KeyframesBlock
  | r :: rs, body :: bodies =>
    (blockNames r).map (fun name => ⟨name, body⟩) ++ sectionBlocks rs bodies
  | _, _ => []

/-- The names of the blocks do not depend on the bodies. -/
theorem names_sectionBlocks {rs : List ((Cell × Nat) × Keyframes)} {bodies : List String}
    (h : rs.length = bodies.length) :
    (sectionBlocks rs bodies).map (·.name) = rs.flatMap blockNames := by
  induction rs generalizing bodies with
  | nil => rfl
  | cons r rs ih =>
    cases bodies with
    | nil => exact absurd h (Nat.succ_ne_zero _)
    | cons body bodies =>
      rw [List.length_cons, List.length_cons] at h
      rw [sectionBlocks, List.map_append, List.flatMap_cons, ih (by omega), List.map_map]
      simp only [Function.comp_def, List.map_id']

section Section

variable {kit : Toolkit} {s u u' : Expansion}

/-- Rendering keyframes for a cell composes their body once and writes it under each name. -/
theorem perform_render_ok {r : (Cell × Nat) × Keyframes} {text : String} :
    (render kit r).perform u = (.ok text, u') ↔
      ∃ body, (keyframesBody kit r.1.1 r.2).perform u = (.ok body, u') ∧
        text = String.join (((blockNames r).map fun name => ⟨name, body⟩).map
          KeyframesBlock.text) := by
  have hblock : ∀ body, (if (r.1.2 == 0) = true then keyframesText r.2.name body ++
      keyframesText (Animation.cellName r.2.name r.1.1.count) body
      else keyframesText (Animation.cellName r.2.name r.1.1.count) body) =
        String.join (((blockNames r).map fun name => ⟨name, body⟩).map KeyframesBlock.text) := by
    intro body
    by_cases hfirst : r.1.2 = 0 <;> simp [blockNames, hfirst, KeyframesBlock.text]
  rw [render, cellKeyframes, perform_bind_ok]
  constructor
  · rintro ⟨body, u₁, hbody, hdone⟩
    rw [perform_pure_ok] at hdone
    obtain ⟨rfl, rfl⟩ := hdone
    exact ⟨body, hbody, hblock body⟩
  · rintro ⟨body, hbody, rfl⟩
    exact ⟨body, u', hbody, perform_pure_ok.2 ⟨hblock body, rfl⟩⟩

/-- A section that is rendered has its blocks, whose bodies are composed one after the other. -/
theorem exists_sectionBlocks {front rs : List ((Cell × Nat) × Keyframes)}
    {before texts : List String} (hall : s.renderings = front ++ rs)
    (hfront : (front.mapM (render kit)).perform s = (.ok before, u))
    (h : (rs.mapM (render kit)).perform u = (.ok texts, u')) :
    ∃ bodies, List.Forall₂ (fun r body => Renders kit s r.1 r.2 body) rs bodies ∧
      String.join texts = String.join ((sectionBlocks rs bodies).map KeyframesBlock.text) := by
  induction rs generalizing front before texts u with
  | nil =>
    rw [List.mapM_nil, perform_pure_ok] at h
    exact ⟨[], .nil, by rw [← h.1]; rfl⟩
  | cons r rs ih =>
    rw [List.mapM_cons, perform_bind_ok] at h
    obtain ⟨text, u₁, hr, h⟩ := h
    rw [perform_bind_ok] at h
    obtain ⟨texts, u₂, hrs, h⟩ := h
    rw [perform_pure_ok] at h
    obtain ⟨rfl, rfl⟩ := h
    obtain ⟨body, hbody, htext⟩ := perform_render_ok.1 hr
    -- The first of these comes after `front`, and the others after both.
    have hone : ([r].mapM (render kit)).perform u = (.ok [text], u₁) := by
      rw [List.mapM_cons, perform_bind_ok]
      exact ⟨text, u₁, hr, rfl⟩
    have hfront' : ((front ++ [r]).mapM (render kit)).perform s = (.ok (before ++ [text]), u₁) := by
      rw [List.mapM_append, perform_bind_ok]
      refine ⟨before, u, hfront, ?_⟩
      rw [perform_bind_ok]
      exact ⟨[text], u₁, hone, rfl⟩
    obtain ⟨bodies, hbodies, hjoin⟩ := ih (by rw [hall, List.append_assoc]; rfl) hfront' hrs
    refine ⟨body :: bodies, .cons ⟨front, rs, before, u, u₁, hall, hfront, hbody⟩ hbodies, ?_⟩
    rw [String.join_cons, hjoin, htext, sectionBlocks, List.map_append, String.join_append]

end Section

/-! ### Names -/

/-- The names of all blocks if there are `total` cells: the plain names once, unless there is no
cell, and for every cell the names that are made for it. -/
def allBlockNames (names : List String) (total : Nat) : List String :=
  (if total = 0 then [] else names) ++
    (GridSize.upTo total).flatMap fun count => names.map fun name => Animation.cellName name count

theorem length_allBlockNames (names : List String) {total : Nat} (h : total ≠ 0) :
    (allBlockNames names total).length = (total + 1) * names.length := by
  simp only [allBlockNames, if_neg h, List.length_append, List.length_flatMap, List.length_map,
    List.map_const', List.sum_replicate_nat, GridSize.length_upTo]
  rw [Nat.add_one_mul, Nat.add_comm]

/-- The names that are made for cells are different, as long as the plain names are. -/
theorem nodup_cellNames {names : List String} (h : names.Nodup) (counts : List Nat)
    (hcounts : counts.Nodup) : (counts.flatMap fun count =>
      names.map fun name => Animation.cellName name count).Nodup := by
  rw [List.nodup_flatMap]
  constructor
  · intro count _
    exact h.map fun name name' heq => (Animation.cellName_inj heq).1
  · refine hcounts.imp fun {count count'} hne => ?_
    -- Two cells share no name, since the name tells the cell.
    intro shared hmem hmem'
    obtain ⟨name, -, rfl⟩ := List.mem_map.1 hmem
    obtain ⟨name', -, heq⟩ := List.mem_map.1 hmem'
    exact hne (Animation.cellName_inj heq).2.symm

/-- The names of all blocks are different exactly if no plain name is made for a cell. -/
theorem nodup_allBlockNames {names : List String} (h : names.Nodup) (total : Nat) :
    (allBlockNames names total).Nodup ↔ ∀ name ∈ names, ∀ count ∈ GridSize.upTo total,
      Animation.cellName name count ∉ names := by
  have hmade := nodup_cellNames h (GridSize.upTo total) List.nodup_range'
  rw [allBlockNames, List.nodup_append]
  by_cases htotal : total = 0
  · -- Without a cell there is no block.
    subst htotal
    have hnone : GridSize.upTo 0 = [] := rfl
    simp [hnone]
  · rw [if_neg htotal]
    simp only [h, hmade, true_and, List.mem_flatMap, List.mem_map]
    constructor
    · intro hdistinct name hname count hcount hplain
      exact hdistinct _ hplain _ ⟨count, hcount, name, hname, rfl⟩ rfl
    · rintro hfree plain hplain _ ⟨count, hcount, name, hname, rfl⟩ rfl
      exact hfree name hname count hcount hplain

/-- The names of the blocks of a section, in some order. -/
theorem perm_blockNames (g : GridSize) (known : KeyframeStore) :
    ((g.cells.zipIdx.product known.definitions).flatMap blockNames).Perm
      (allBlockNames known.names g.cells.length) := by
  -- The plain names of all visits, and the names that are made in them.
  have hsplit := List.flatMap_append_perm (g.cells.zipIdx.product known.definitions)
    (fun r => if r.1.2 = 0 then [r.2.name] else [])
    (fun r => [Animation.cellName r.2.name r.1.1.count])
  have hplain : (g.cells.zipIdx.product known.definitions).flatMap
      (fun r => if r.1.2 = 0 then [r.2.name] else []) =
        if g.cells.length = 0 then [] else known.names := by
    rw [List.product, List.flatMap_assoc]
    cases g.cells with
    | nil => rfl
    | cons cell cells =>
      -- Only the first visit has them.
      have hrest : (cells.zipIdx (0 + 1)).flatMap (fun visit =>
          (known.definitions.map (Prod.mk visit)).flatMap
            fun r => if r.1.2 = 0 then [r.2.name] else []) = [] := by
        refine List.flatMap_eq_nil_iff.2 fun visit hvisit => ?_
        have hlater := List.le_snd_of_mem_zipIdx hvisit
        rw [List.flatMap_map]
        refine List.flatMap_eq_nil_iff.2 fun k _ => if_neg ?_
        show visit.2 ≠ 0
        omega
      rw [List.zipIdx_cons, List.flatMap_cons, hrest, List.append_nil, List.flatMap_map,
        if_neg (by simp), KeyframeStore.names, List.map_eq_flatMap]
      rfl
  have hmade : (g.cells.zipIdx.product known.definitions).flatMap
      (fun r => [Animation.cellName r.2.name r.1.1.count]) =
        (GridSize.upTo g.cells.length).flatMap fun count =>
          known.names.map fun name => Animation.cellName name count := by
    rw [← g.map_count_cells, List.flatMap_map, ← List.zipIdx_map_fst 0 g.cells, List.flatMap_map,
      List.product, List.flatMap_assoc, List.zipIdx_map_fst]
    refine List.flatMap_congr fun visit _ => ?_
    rw [List.flatMap_map, KeyframeStore.names, List.map_map, List.map_eq_flatMap]
    rfl
  rw [hplain, hmade] at hsplit
  exact hsplit.symm

/-! ### Whole generations -/

/-- A walk registers no name twice. -/
theorem kept_nodup_names (cell : Cell) (initial : Bool) :
    Kept cell initial (fun _ => True) fun s =>
      s.discovering = initial ∧ s.keyframes.names.Nodup := by
  refine Kept.of_apply (fun _ hs => hs) fun {s c} hs _ => ?_
  by_cases hdefine : ∃ k, c = .define k
  · obtain ⟨k, rfl⟩ := hdefine
    exact KeyframeStore.nodup_names_register hs k
  · rw [s.keyframes_apply (not_exists.1 hdefine)]
    exact hs

section Generation

variable {kit : Toolkit} {seed : UInt64} {tokens : List Token} {default : GridSize}
  {compiled : Compiled}

/-- The definitions that both passes leave have different names. -/
theorem nodup_names_secondPass : (secondPass kit seed tokens default).keyframes.names.Nodup :=
  secondPass_of_kept (fun _ _ => trivial) kept_nodup_names (fun _ _ hs => hs) id List.nodup_nil

/-- The keyframes section of a stylesheet has a block under the plain name of each definition for
the first cell, and for every cell a block under a name made for it, each with the body that the
definition has for the cell. The names of all blocks are different exactly if no name that is made
for a cell is the plain name of a definition. -/
theorem keyframes_section (h : generate kit seed tokens default = .ok compiled) :
    let last := secondPass kit seed tokens default
    let names := last.keyframes.names
    let cells := compiled.grid.cells
    ∃ bodies blocks, last.renderings = cells.zipIdx.product last.keyframes.definitions ∧
      List.Forall₂ (fun r body => Renders kit last r.1 r.2 body) last.renderings bodies ∧
      blocks = sectionBlocks last.renderings bodies ∧
      compiled.styles.keyframes = String.join (blocks.map KeyframesBlock.text) ∧
      (blocks.map (·.name)).Perm (allBlockNames names cells.length) ∧
      (cells ≠ [] → blocks.length = (cells.length + 1) * names.length) ∧
      ((blocks.map (·.name)).Nodup ↔ ∀ name ∈ names, ∀ count ∈ GridSize.upTo cells.length,
        Animation.cellName name count ∉ names) := by
  intro last names cells
  have hrenderings : last.renderings = cells.zipIdx.product last.keyframes.definitions := by
    rw [Expansion.renderings, history_secondPass h]
  obtain ⟨s, hsection⟩ := exists_keyframesSection h
  rw [perform_keyframesSection, map_eq_pure_bind, perform_bind_ok] at hsection
  obtain ⟨texts, u, hloop, hjoin⟩ := hsection
  rw [perform_pure_ok] at hjoin
  have hnone : (([] : List ((Cell × Nat) × Keyframes)).mapM (render kit)).perform last =
    (.ok [], last) := rfl
  obtain ⟨bodies, hbodies, htext⟩ :=
    exists_sectionBlocks (List.nil_append last.renderings).symm hnone hloop
  have hperm : ((sectionBlocks last.renderings bodies).map (·.name)).Perm
      (allBlockNames names cells.length) := by
    rw [names_sectionBlocks hbodies.length_eq, hrenderings]
    exact perm_blockNames compiled.grid last.keyframes
  refine ⟨bodies, _, hrenderings, hbodies, rfl, hjoin.1.symm.trans htext, hperm,
    fun hcells => ?_, ?_⟩
  · rw [← List.length_map (·.name), hperm.length_eq]
    exact length_allBlockNames names fun hzero => hcells (List.length_eq_zero_iff.1 hzero)
  · rw [hperm.nodup_iff]
    exact nodup_allBlockNames nodup_names_secondPass _

end Generation

/-- A definition of keyframes with one step, which sets the opacity. -/
def fadeTo (name opacity : String) : Token :=
  .keyframes name [⟨"to", [.ofText "opacity" opacity]⟩]

/-- Where no name is made that is taken, two definitions have six different blocks for two cells. -/
theorem keyframes_section_of_two : ∃ compiled, ∃ blocks : List KeyframesBlock,
    generate .builtin 1 [fadeTo "hide" "0", fadeTo "show" "1"] (GridSize.ofText "1x2") =
      .ok compiled ∧
    compiled.styles.keyframes = String.join (blocks.map KeyframesBlock.text) ∧
    blocks.length = 6 ∧ (blocks.map (·.name)).Nodup := by
  obtain ⟨compiled, h⟩ := exists_generate_eq (show (generate .builtin 1
    [fadeTo "hide" "0", fadeTo "show" "1"] (GridSize.ofText "1x2")).isOk = true by decide +kernel)
  have hnames : (secondPass .builtin 1 [fadeTo "hide" "0", fadeTo "show" "1"]
      (GridSize.ofText "1x2")).keyframes.names = ["hide", "show"] := by decide +kernel
  have hcells : compiled.grid.cells.length = 2 := by
    rw [(generate_passes h).2.2.1]
    decide +kernel
  obtain ⟨bodies, blocks, -, -, -, htext, -, hlength, hnodup⟩ := keyframes_section h
  rw [hnames, hcells] at hlength hnodup
  refine ⟨compiled, blocks, h, htext, hlength fun hnone => ?_, hnodup.2 (by decide +kernel)⟩
  rw [hnone] at hcells
  exact absurd hcells (by decide)

/-- The first of two cells refers to its own keyframes of `a` under the name `a-1`. The section has
a block of this name for it, and behind that another one, which is the plain one of a definition
that is called `a-1`. -/
theorem keyframes_names_clash :
    Animation.reference ⟨1, 1, 1, 1, ⟨1, 2, 1⟩⟩ "a" = Animation.cellName "a" 1 ∧
    ∃ compiled, generate .builtin 1
        [fadeTo "a" "0", fadeTo "a-1" "1", .rule (.ofText "animation-name" "a")]
        (GridSize.ofText "1x2") = .ok compiled ∧
      compiled.grid.cells.length = 2 ∧
      ∃ blocks : List KeyframesBlock,
        compiled.styles.keyframes = String.join (blocks.map KeyframesBlock.text) ∧
        blocks.map (·.name) = ["a", "a-1", "a-1", "a-1-1", "a-2", "a-1-2"] ∧
        ¬ (blocks.map (·.name)).Nodup := by
  refine ⟨by decide +kernel, ?_⟩
  obtain ⟨compiled, h⟩ := exists_generate_eq (show (generate .builtin 1
    [fadeTo "a" "0", fadeTo "a-1" "1", .rule (.ofText "animation-name" "a")]
    (GridSize.ofText "1x2")).isOk = true by decide +kernel)
  have hkeyframes : ((generate .builtin 1
      [fadeTo "a" "0", fadeTo "a-1" "1", .rule (.ofText "animation-name" "a")]
      (GridSize.ofText "1x2")).toOption.map fun result => result.styles.keyframes) =
      some (String.join (([⟨"a", "  to \x7b opacity: 0; \x7d"⟩,
        ⟨"a-1", "  to \x7b opacity: 0; \x7d"⟩, ⟨"a-1", "  to \x7b opacity: 1; \x7d"⟩,
        ⟨"a-1-1", "  to \x7b opacity: 1; \x7d"⟩, ⟨"a-2", "  to \x7b opacity: 0; \x7d"⟩,
        ⟨"a-1-2", "  to \x7b opacity: 1; \x7d"⟩] :
          List KeyframesBlock).map KeyframesBlock.text)) := by decide +kernel
  have hcells : compiled.grid.cells.length = 2 := by
    rw [(generate_passes h).2.2.1]
    decide +kernel
  rw [h, Except.toOption, Option.map_some, Option.some.injEq] at hkeyframes
  exact ⟨compiled, h, hcells, _, hkeyframes, rfl, by decide⟩

end GridStyle
