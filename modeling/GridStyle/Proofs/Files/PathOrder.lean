import GridStyle.Compile
import GridStyle.Proofs.Files.Pieces
import Mathlib.Data.List.Lex
import Mathlib.Data.Prod.Lex
import Mathlib.Data.String.Basic

/-!
# The Order of Paths

A path is before another one if its components are, as lists of their kinds and texts
(`Path.before_iff`). So `Path.atMost` is a total order up to the components (`Path.atMost_iff`), and
what a search finds is in this order (`pairwise_findTokenFiles`).
-/

namespace GridStyle

namespace Component

/-- The kind of a component and its text. -/
def key : Component → ℕ ×ₗ String
  | .name text => toLex (3, text)
  | c => toLex (c.rank, "")

theorem before_iff (a b : Component) : a.before b = true ↔ a.key < b.key := by
  cases a <;> cases b <;> simp [before, key, rank, Prod.Lex.lt_iff]

theorem key_injective : Function.Injective key := by
  intro a b h
  cases a <;> cases b <;> simp_all [key, rank]

end Component

/-- Lists of components are compared as the lists of their keys. -/
theorem componentsBefore_iff (as bs : List Component) :
    componentsBefore as bs = true ↔ as.map Component.key < bs.map Component.key := by
  induction as generalizing bs with
  | nil => cases bs <;> simp [componentsBefore]
  | cons a as ih =>
    cases bs with
    | nil => simp [componentsBefore]
    | cons b bs =>
      rw [componentsBefore, List.map_cons, List.map_cons, List.cons_lt_cons_iff, ← ih bs]
      simp only [Component.before_iff]
      rcases lt_trichotomy a.key b.key with h | h | h
      · simp [h]
      · simp [h]
      · simp [h, h.not_gt, h.ne']

namespace Path

/-- The keys of the components of a path. -/
def key (p : Path) : List (ℕ ×ₗ String) := p.components.map Component.key

theorem before_iff (p q : Path) : p.before q = true ↔ p.key < q.key :=
  componentsBefore_iff p.components q.components

theorem atMost_iff (p q : Path) : p.atMost q = true ↔ p.key ≤ q.key := by
  rw [atMost, Bool.not_eq_true', Bool.eq_false_iff, ne_eq, before_iff, not_lt]

/-- Paths in order are in strict order if their components differ. -/
theorem before_of_atMost {p q : Path} (h : p.atMost q = true) (hne : p.components ≠ q.components) :
    p.before q = true := by
  rw [before_iff]
  refine lt_of_le_of_ne ((atMost_iff p q).1 h) fun heq => hne ?_
  exact Component.key_injective.list_map heq

end Path

/-- Token files are found in order. -/
theorem pairwise_findTokenFiles (d : Disk) (dir : Path) :
    (findTokenFiles d dir).Pairwise fun p q => p.atMost q = true := by
  refine List.pairwise_mergeSort (fun p q r hpq hqr => ?_) (fun p q => ?_) _
  · rw [Path.atMost_iff] at hpq hqr ⊢
    exact hpq.trans hqr
  · rw [Bool.or_eq_true, Path.atMost_iff, Path.atMost_iff]
    exact le_total p.key q.key

/-- What two searches find in the order of paths is what is found. -/
theorem findTokenFiles_of_sorted {d : Disk} {dir : Path} {found : List Path}
    (hfound : (tokenExtensions.flatMap fun extension =>
      Glob.find d ⟨dir.text ++ "/**/*." ++ extension⟩).filter isTokenFile = found)
    (hsorted : found.Pairwise fun p q => p.atMost q) : findTokenFiles d dir = found := by
  rw [findTokenFiles, hfound, List.mergeSort_of_pairwise hsorted]

end GridStyle
