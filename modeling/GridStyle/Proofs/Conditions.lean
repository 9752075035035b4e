import GridStyle.Proofs.HostGrid

/-!
# Conditional Blocks Flatten

A walk over one list of tokens and then over another is the walk over both lists, and so is a
search for a grid of the host. Both hold although an initial walk turns into a search as soon as
some grid is known, which may happen in either list.

So a conditional block whose predicate holds in a cell can be replaced by its tokens, and any other
one can be left out.

* `expandTokens_append`, `seekHostGrid_append`: walks and searches over two lists.
* `expandTokens_condition`: a conditional block on its own.
* `condition_flattens`: the block between other tokens.
-/

namespace GridStyle

/-- The action succeeds with a certain result whatever the shared context is, and leaves it. -/
def Action.Settles {α : Type} (action : Action α) (a : α) : Prop :=
  ∀ c, action.perform c = (.ok a, c)

theorem Action.Settles.act_eq_pure {α : Type} {action : Action α} {a : α}
    (h : action.Settles a) : Expanding.act action = pure a := by
  refine Expanding.ext fun s => ?_
  rw [Expanding.perform_act, h, Expansion.withContext_context, Expanding.perform_pure]

section Sequences

variable {kit : Toolkit} {cell : Cell}

open Expanding

theorem seekHostGrid_append (front back : List Token) :
    seekHostGrid kit cell (front ++ back) =
      seekHostGrid kit cell front >>= fun _ => seekHostGrid kit cell back := by
  induction front with
  | nil => rw [List.nil_append, seekHostGrid, pure_bind]
  | cons token front ih =>
    refine Expanding.ext fun s => ?_
    by_cases hhost : s.hostGrid = true
    · -- Nothing is searched in either list.
      rw [perform_seekHostGrid_of_hostGrid _ hhost, perform_bind,
        perform_seekHostGrid_of_hostGrid _ hhost]
      exact (perform_seekHostGrid_of_hostGrid back hhost).symm
    · rw [List.cons_append, perform_seekHostGrid_cons, if_neg hhost, ih, ← bind_assoc,
        perform_bind, perform_bind (seekHostGrid kit cell (token :: front)),
        perform_seekHostGrid_cons, if_neg hhost]

/-- Once a grid is known an initial walk is a search. -/
theorem perform_expandTokens_of_isSome (tokens : List Token) {s : Expansion}
    (hgrid : s.grid.isSome) :
    (expandTokens kit cell true tokens).perform s = (seekHostGrid kit cell tokens).perform s := by
  cases hhost : s.hostGrid with
  | true =>
    rw [perform_expandTokens_of_hostGrid tokens hhost hgrid,
      perform_seekHostGrid_of_hostGrid tokens hhost]
  | false => exact perform_expandTokens_of_grid tokens hhost hgrid

/-- A search does not forget the grid that is known. -/
theorem isSome_grid_of_seekHostGrid {tokens : List Token} {s s' : Expansion}
    (hgrid : s.grid.isSome) (h : (seekHostGrid kit cell tokens).perform s = (.ok (), s')) :
    s'.grid.isSome := by
  obtain ⟨c, found, rfl, -⟩ := exists_adopt_of_seekHostGrid h
  cases found with
  | none => exact hgrid
  | some size => rfl

theorem expandTokens_append (initial : Bool) (front back : List Token) :
    expandTokens kit cell initial (front ++ back) =
      expandTokens kit cell initial front >>= fun _ => expandTokens kit cell initial back := by
  induction front with
  | nil => rw [List.nil_append, expandTokens, pure_bind]
  | cons token front ih =>
    refine Expanding.ext fun s => ?_
    by_cases hknown : initial = true ∧ s.grid.isSome
    · -- The walk is a search from here on, also in the second list.
      obtain ⟨rfl, hgrid⟩ := hknown
      rw [perform_expandTokens_of_isSome _ hgrid, seekHostGrid_append, perform_bind, perform_bind,
        perform_expandTokens_of_isSome _ hgrid]
      rcases hfront : (seekHostGrid kit cell (token :: front)).perform s with ⟨outcome, s'⟩
      cases outcome with
      | error e => rfl
      | ok _ =>
        have hgrid' := isSome_grid_of_seekHostGrid hgrid hfront
        exact (perform_expandTokens_of_isSome back hgrid').symm
    · rw [List.cons_append, perform_expandTokens_cons kit cell hknown, ih, ← bind_assoc,
        perform_bind, perform_bind (expandTokens kit cell initial (token :: front)),
        perform_expandTokens_cons kit cell hknown]

/-! ### One block -/

section Condition

variable {name : String} {arguments : List Argument} {b : Bool}

/-- A search in a block whose condition is settled is a search in its tokens, or none. -/
theorem seekToken_condition (styles : List Token) (h : (holds kit cell name arguments).Settles b) :
    seekToken kit cell (.condition name arguments styles) =
      seekHostGrid kit cell (if b then styles else []) := by
  rw [seekToken, h.act_eq_pure, pure_bind]
  cases b with
  | true => rfl
  | false => rw [if_neg Bool.false_ne_true, if_neg Bool.false_ne_true, seekHostGrid]

/-- The walk of a block whose condition is settled is the walk of its tokens, or none. -/
theorem expandToken_condition (initial : Bool) (styles : List Token)
    (h : (holds kit cell name arguments).Settles b) :
    expandToken kit cell initial (.condition name arguments styles) =
      expandTokens kit cell initial (if b then styles else []) := by
  rw [expandToken, h.act_eq_pure, pure_bind]
  cases b with
  | true => rfl
  | false => rw [if_neg Bool.false_ne_true, if_neg Bool.false_ne_true, expandTokens]

theorem expandTokens_condition (initial : Bool) (styles : List Token)
    (h : (holds kit cell name arguments).Settles b) :
    expandTokens kit cell initial [.condition name arguments styles] =
      expandTokens kit cell initial (if b then styles else []) := by
  refine Expanding.ext fun s => ?_
  by_cases hknown : initial = true ∧ s.grid.isSome
  · obtain ⟨rfl, hgrid⟩ := hknown
    rw [perform_expandTokens_of_isSome _ hgrid, perform_expandTokens_of_isSome _ hgrid,
      perform_seekHostGrid_cons]
    -- Also a search that is over before the block makes no difference.
    split
    · next hhost => exact (perform_seekHostGrid_of_hostGrid _ hhost).symm
    · rw [seekToken_condition styles h, ← seekHostGrid_append, List.append_nil]
  · rw [perform_expandTokens_cons kit cell hknown, expandToken_condition initial styles h,
      ← expandTokens_append, List.append_nil]

/-- A settled block between other tokens is replaced by its tokens, or left out. -/
theorem expandTokens_flatten (initial : Bool) (front styles back : List Token)
    (h : (holds kit cell name arguments).Settles b) :
    expandTokens kit cell initial (front ++ .condition name arguments styles :: back) =
      expandTokens kit cell initial (front ++ (if b then styles else []) ++ back) := by
  have hsplit : front ++ Token.condition name arguments styles :: back =
      front ++ [Token.condition name arguments styles] ++ back := by simp
  rw [hsplit, expandTokens_append, expandTokens_append, expandTokens_condition initial styles h,
    ← expandTokens_append, ← expandTokens_append]

/-- An unknown predicate holds nowhere, and its arguments are not composed. -/
theorem settles_holds_of_unknown
    (h : kit.predicates.find? (Selector.stripMarker name) = none) :
    (holds kit cell name arguments).Settles false := by
  intro c
  rw [holds, h]
  rfl

end Condition

end Sequences

/-- A conditional block flattens. If its predicate holds in the cell, a walk with the block ends
like the walk with the tokens of the block in its place: with the same error or success and in the
same state. If the predicate does not hold or is unknown, the walk ends like the one without the
block. The walk may begin in any state, and may be an initial one. -/
theorem condition_flattens (kit : Toolkit) (cell : Cell) (initial : Bool) (name : String)
    (arguments : List Argument) (front styles back : List Token) (s : Expansion) :
    ((holds kit cell name arguments).Settles true →
      (expandCell kit initial (front ++ .condition name arguments styles :: back) cell).perform s =
        (expandCell kit initial (front ++ styles ++ back) cell).perform s) ∧
    ((holds kit cell name arguments).Settles false ∨
        kit.predicates.find? (Selector.stripMarker name) = none →
      (expandCell kit initial (front ++ .condition name arguments styles :: back) cell).perform s =
        (expandCell kit initial (front ++ back) cell).perform s) := by
  simp only [Expanding.perform_expandCell]
  constructor
  · intro h
    rw [expandTokens_flatten initial front styles back h, if_pos rfl]
  · intro h
    have hsettles : (holds kit cell name arguments).Settles false :=
      h.elim id settles_holds_of_unknown
    rw [expandTokens_flatten initial front styles back hsettles, if_neg Bool.false_ne_true,
      List.append_nil]

/-- A grid of the host in a block for odd cells, after the grid of a cell. -/
theorem condition_flattens_odd :
    (holds .odd Cell.discovery "@odd" []).Settles true ∧
    (holds .odd { count := 2 } "@odd" []).Settles false ∧
    (expandCell .odd true ([.rule (.ofText "@grid" "5")] ++
        .condition "@odd" [] [.pseudo 0 ":host" [.ofText "@grid" "2x1"]] ::
          [.rule (.ofText "color" "red")]) Cell.discovery).perform (.ofSeed 1) =
      (expandCell .odd true ([.rule (.ofText "@grid" "5")] ++
        [.pseudo 0 ":host" [.ofText "@grid" "2x1"]] ++
          [.rule (.ofText "color" "red")]) Cell.discovery).perform (.ofSeed 1) ∧
    (expandCell .odd false ([] ++ .condition "@odd" [] [.rule (.ofText "color" "red")] ::
        [.rule (.ofText "color" "blue")]) { count := 2 }).perform (.ofSeed 1) =
      (expandCell .odd false ([] ++ [.rule (.ofText "color" "blue")]) { count := 2 }).perform
        (.ofSeed 1) := by
  have hodd : (holds .odd Cell.discovery "@odd" []).Settles true := fun c => rfl
  have heven : (holds .odd { count := 2 } "@odd" []).Settles false := fun c => rfl
  exact ⟨hodd, heven, (condition_flattens _ _ _ _ _ _ _ _ _).1 hodd,
    (condition_flattens _ _ _ _ _ _ _ _ _).2 (.inl heven)⟩

end GridStyle
