import GridStyle.Expansion.RuleStore
import Mathlib.Data.List.Basic

/-!
# The View of a Rule Store

A rule store keeps its selectors in an array and their declarations in a hash map. This module
describes both operations through the two ways to look at a store: `get?`, the declarations of one
selector, and `toList`, the selectors in order with their declarations.

* `get?_push` and `get?_dropCells` hold of every store.
* `toList_push` says that a push appends to the list of buckets (`appendTo`). It needs a store
  whose array and map speak of the same selectors (`WellFormed`), as all operations keep it.
* `toList_dropCells` says that a reset filters the list of buckets.
-/

namespace GridStyle.RuleStore

/-- Selectors in order, each with its declarations. -/
abbrev Buckets := List (String × List String)

/-- Append a declaration to the bucket of a selector, or to a new bucket at the end. -/
def appendTo (selector declaration : String) : Buckets → Buckets
  | [] => [(selector, [declaration])]
  | (other, declarations) :: rest =>
    if other = selector then (other, declarations ++ [declaration]) :: rest
    else (other, declarations) :: appendTo selector declaration rest

/-- The selectors are different, and they are those that have declarations. -/
structure WellFormed (s : RuleStore) : Prop where
  /-- No selector stands twice in the order. -/
  nodup : s.order.toList.Nodup
  /-- The selectors of the order are those of the map. -/
  mem_order_iff : ∀ selector, selector ∈ s.order.toList ↔ (s.get? selector).isSome

/-! ### One selector -/

theorem get?_empty (selector : String) : ({} : RuleStore).get? selector = none := by
  simp [get?]

/-- A push appends to the declarations of its selector and leaves all others alone. -/
theorem get?_push (s : RuleStore) (selector declaration other : String) :
    (s.push selector declaration).get? other =
      if declaration ≠ "" ∧ selector = other then
        some ((s.get? other).getD [] ++ [declaration])
      else s.get? other := by
  by_cases hempty : declaration = ""
  · subst hempty
    simp
  · have hne : declaration.isEmpty = false := by
      rw [← Bool.not_eq_true, String.isEmpty_iff]
      exact hempty
    simp only [push, hne, Bool.false_eq_true, if_false, get?, Std.HashMap.getElem?_alter]
    by_cases hsel : selector = other
    · subst hsel
      cases s.buckets[selector]? <;> simp [hempty]
    · simp [hsel]

/-- A reset forgets the declarations of cells and no others. -/
theorem get?_dropCells (s : RuleStore) (selector : String) :
    s.dropCells.get? selector =
      if Selector.isCell selector then none else s.get? selector := by
  simp only [get?, dropCells, Std.HashMap.getElem?_filter']
  cases s.buckets[selector]? <;> cases Selector.isCell selector <;> simp

/-! ### All selectors -/

theorem wellFormed_empty : WellFormed {} :=
  ⟨by simp, fun selector => by simp [get?_empty]⟩

theorem order_push_of_mem {s : RuleStore} {selector declaration : String}
    (hsome : (s.get? selector).isSome) :
    (s.push selector declaration).order = s.order := by
  have hmem : selector ∈ s.buckets := by simpa [get?] using hsome
  unfold push
  split
  · rfl
  · simp [hmem]

theorem order_push_of_not_mem {s : RuleStore} {selector declaration : String}
    (hnone : ¬ (s.get? selector).isSome) (hne : declaration ≠ "") :
    (s.push selector declaration).order = s.order.push selector := by
  have hmem : selector ∉ s.buckets := by simpa [get?] using hnone
  unfold push
  split
  · next hempty => exact absurd (String.isEmpty_iff.1 hempty) hne
  · simp [hmem]

/-- A push keeps the selectors different and in agreement with the map. -/
theorem WellFormed.push {s : RuleStore} (h : s.WellFormed) (selector declaration : String) :
    (s.push selector declaration).WellFormed := by
  by_cases hne : declaration = ""
  · subst hne
    simpa using h
  · by_cases hsome : (s.get? selector).isSome
    · -- The selector is known, so the order stays.
      refine ⟨by rw [order_push_of_mem hsome]; exact h.nodup, fun other => ?_⟩
      rw [order_push_of_mem hsome, h.mem_order_iff, get?_push]
      by_cases heq : selector = other
      · subst heq
        simp [hne, hsome]
      · simp [heq]
    · have hnot : selector ∉ s.order.toList := fun hmem => hsome ((h.mem_order_iff _).1 hmem)
      -- The selector comes to the end of the order, where it was not before.
      refine ⟨?_, fun other => ?_⟩
      · rw [order_push_of_not_mem hsome hne, Array.toList_push]
        refine List.nodup_append.2 ⟨h.nodup, by simp, ?_⟩
        intro a ha b hb hab
        rw [List.mem_singleton] at hb
        exact hnot (hb ▸ hab ▸ ha)
      · rw [order_push_of_not_mem hsome hne, Array.toList_push, List.mem_append, h.mem_order_iff,
          get?_push]
        by_cases heq : selector = other
        · simp [hne, heq]
        · simp [heq, Ne.symm heq]

/-- A reset keeps the selectors different and in agreement with the map. -/
theorem WellFormed.dropCells {s : RuleStore} (h : s.WellFormed) : s.dropCells.WellFormed := by
  refine ⟨?_, fun selector => ?_⟩
  · rw [RuleStore.dropCells, Array.toList_filter]
    exact h.nodup.filter _
  · have hmem := h.mem_order_iff selector
    rw [get?_dropCells]
    by_cases hcell : Selector.isCell selector
    · simp [RuleStore.dropCells, hcell]
    · simpa [RuleStore.dropCells, hcell] using hmem

/-- The buckets of some selectors. -/
def bucketsOf (get? : String → Option (List String)) (selectors : List String) : Buckets :=
  selectors.filterMap fun selector => (get? selector).map fun bucket => (selector, bucket)

theorem toList_eq_bucketsOf (s : RuleStore) : s.toList = bucketsOf s.get? s.order.toList := rfl

theorem bucketsOf_congr {get? get?' : String → Option (List String)} {selectors : List String}
    (h : ∀ selector ∈ selectors, get? selector = get?' selector) :
    bucketsOf get? selectors = bucketsOf get?' selectors := by
  refine List.filterMap_congr fun selector hmem => ?_
  rw [h selector hmem]

/-- Appending to a selector without a bucket makes one at the end. -/
theorem appendTo_of_not_mem {selector : String} (declaration : String) {buckets : Buckets}
    (h : selector ∉ buckets.map Prod.fst) :
    appendTo selector declaration buckets = buckets ++ [(selector, [declaration])] := by
  induction buckets with
  | nil => rfl
  | cons bucket rest ih =>
    obtain ⟨other, declarations⟩ := bucket
    simp only [List.map_cons, List.mem_cons, not_or] at h
    rw [appendTo, if_neg (Ne.symm h.1), ih h.2, List.cons_append]

/-- Appending passes over buckets of other selectors. -/
theorem appendTo_append {selector : String} (declaration : String) {front : Buckets}
    (back : Buckets) (h : selector ∉ front.map Prod.fst) :
    appendTo selector declaration (front ++ back) =
      front ++ appendTo selector declaration back := by
  induction front with
  | nil => rfl
  | cons bucket rest ih =>
    obtain ⟨other, declarations⟩ := bucket
    simp only [List.map_cons, List.mem_cons, not_or] at h
    rw [List.cons_append, appendTo, if_neg (Ne.symm h.1), ih h.2, List.cons_append]

/-- Appending to a selector adds it to the selectors and nothing else. -/
theorem mem_keys_appendTo {selector declaration other : String} {buckets : Buckets} :
    other ∈ (appendTo selector declaration buckets).map Prod.fst ↔
      other = selector ∨ other ∈ buckets.map Prod.fst := by
  induction buckets with
  | nil => simp [appendTo]
  | cons bucket rest ih =>
    obtain ⟨key, declarations⟩ := bucket
    rw [appendTo]
    split
    · next heq => simp [heq]
    · rw [List.map_cons, List.mem_cons, ih, List.map_cons, List.mem_cons, or_left_comm]

/-- Among different selectors that have buckets, changing the bucket of one of them is appending
to it. -/
theorem bucketsOf_update {get? : String → Option (List String)} {selector declaration : String}
    {selectors : List String} (hnodup : selectors.Nodup)
    (hsome : ∀ other ∈ selectors, (get? other).isSome) (hmem : selector ∈ selectors) :
    bucketsOf (fun other => if selector = other then
        some ((get? other).getD [] ++ [declaration]) else get? other) selectors =
      appendTo selector declaration (bucketsOf get? selectors) := by
  induction selectors with
  | nil => simp at hmem
  | cons other rest ih =>
    obtain ⟨bucket, hbucket⟩ := Option.isSome_iff_exists.1 (hsome other List.mem_cons_self)
    rw [List.nodup_cons] at hnodup
    have hcons : bucketsOf get? (other :: rest) = (other, bucket) :: bucketsOf get? rest := by
      simp [bucketsOf, hbucket]
    by_cases heq : selector = other
    · -- The bucket is this one, and the selector stands nowhere else.
      subst heq
      have hrest : bucketsOf (fun other => if selector = other then
          some ((get? other).getD [] ++ [declaration]) else get? other) rest =
          bucketsOf get? rest := by
        refine bucketsOf_congr fun other hother => if_neg ?_
        rintro rfl
        exact hnodup.1 hother
      rw [hcons, appendTo, if_pos rfl, ← hrest]
      simp [bucketsOf, hbucket]
    · have hrest := ih hnodup.2 (fun k hk => hsome k (List.mem_cons_of_mem _ hk))
        ((List.mem_cons.1 hmem).resolve_left heq)
      rw [hcons, appendTo, if_neg (Ne.symm heq), ← hrest]
      simp [bucketsOf, hbucket, heq]

/-- The selectors of the view are those of the store. -/
theorem WellFormed.keys_toList {s : RuleStore} (h : s.WellFormed) :
    s.toList.map Prod.fst = s.order.toList := by
  rw [toList_eq_bucketsOf, bucketsOf, List.map_filterMap]
  refine Eq.trans (List.filterMap_congr (g := some) fun selector hmem => ?_) List.filterMap_some
  obtain ⟨bucket, hbucket⟩ := Option.isSome_iff_exists.1 ((h.mem_order_iff _).1 hmem)
  simp [hbucket]

/-- The view and the store know the same declarations. -/
theorem WellFormed.lookup_toList {s : RuleStore} (h : s.WellFormed) (selector : String) :
    s.toList.lookup selector = s.get? selector := by
  have hlookup : ∀ selectors : List String, (bucketsOf s.get? selectors).lookup selector =
      if selector ∈ selectors then s.get? selector else none := by
    intro selectors
    induction selectors with
    | nil => rfl
    | cons other rest ih =>
      rw [bucketsOf] at ih ⊢
      by_cases heq : selector = other
      · subst heq
        cases hs : s.get? selector <;> simp [hs, ih]
      · have hne : (selector == other) = false := by simpa using heq
        cases hs : s.get? other <;> simp [hs, ih, heq, List.lookup_cons, hne]
  rw [toList_eq_bucketsOf, hlookup]
  -- A selector that is not in the order has no declarations.
  split
  · rfl
  · next hnot =>
    rw [h.mem_order_iff, Option.not_isSome_iff_eq_none] at hnot
    exact hnot.symm

/-- A push appends to the bucket of its selector, or makes one at the end. -/
theorem toList_push {s : RuleStore} (h : s.WellFormed) (selector declaration : String) :
    (s.push selector declaration).toList =
      if declaration = "" then s.toList else appendTo selector declaration s.toList := by
  by_cases hne : declaration = ""
  · subst hne
    simp
  · have hget : (s.push selector declaration).get? = fun other => if selector = other then
        some ((s.get? other).getD [] ++ [declaration]) else s.get? other := by
      funext other
      simp [get?_push, hne]
    rw [if_neg hne, toList_eq_bucketsOf, toList_eq_bucketsOf, hget]
    by_cases hsome : (s.get? selector).isSome
    · -- The order stays, and one bucket grows.
      rw [order_push_of_mem hsome]
      exact bucketsOf_update h.nodup (fun other => (h.mem_order_iff other).1)
        ((h.mem_order_iff _).2 hsome)
    · -- The selector is new, so all other buckets stay and one comes to the end.
      have hnot : selector ∉ s.order.toList := fun hmem => hsome ((h.mem_order_iff _).1 hmem)
      rw [order_push_of_not_mem hsome hne, appendTo_of_not_mem declaration
        (by rw [← toList_eq_bucketsOf, h.keys_toList]; exact hnot), Array.toList_push]
      have hold : bucketsOf (fun other => if selector = other then
          some ((s.get? other).getD [] ++ [declaration]) else s.get? other) s.order.toList =
          bucketsOf s.get? s.order.toList := by
        refine bucketsOf_congr fun other hother => if_neg ?_
        rintro rfl
        exact hnot hother
      rw [bucketsOf, List.filterMap_append, ← bucketsOf, hold]
      simp [Option.not_isSome_iff_eq_none.1 hsome]

/-- A reset keeps the buckets that are not those of cells. -/
theorem toList_dropCells (s : RuleStore) :
    s.dropCells.toList = s.toList.filter fun bucket => !Selector.isCell bucket.1 := by
  rw [toList_eq_bucketsOf, toList_eq_bucketsOf, bucketsOf, bucketsOf]
  simp only [dropCells, Array.toList_filter]
  induction s.order.toList with
  | nil => rfl
  | cons selector rest ih =>
    have hget := get?_dropCells s selector
    rw [dropCells] at hget
    by_cases hcell : Selector.isCell selector
    · cases hs : s.get? selector <;> simp [hcell, hs, ih]
    · cases hs : s.get? selector <;> simp [hcell, hs, hget, ih]

/-- A declaration for the host outlives a reset. -/
theorem toList_push_dropCells {text : String} (h : text ≠ "") :
    (({} : RuleStore).push Selector.host text).dropCells.toList = [(Selector.host, [text])] := by
  have hempty : ({} : RuleStore).toList = [] := rfl
  have hhost : Selector.isCell Selector.host = false := by decide
  rw [toList_dropCells, toList_push wellFormed_empty, if_neg h, hempty, appendTo,
    List.filter_cons_of_pos (by rw [hhost]; rfl), List.filter_nil]

/-- A declaration for the host after a reset. -/
theorem toList_dropCells_push {text : String} (h : text ≠ "") :
    (({} : RuleStore).dropCells.push Selector.host text).toList = [(Selector.host, [text])] := by
  rw [toList_push wellFormed_empty.dropCells, if_neg h, toList_dropCells]
  rfl

end GridStyle.RuleStore
