import GridStyle.Proofs.RuleStore
import Mathlib.Data.List.Induction
import Mathlib.Data.List.Nodup

/-!
# Rule Stores as Logs

What a rule store holds is decided by a log of the declarations that were added (`Log.record`): a
declaration is an entry unless it is empty, and a reset strikes out the entries of cells. After any
operations the store shows the log grouped by selector, selectors in the order of their first
entries and declarations in the order of theirs (`toList_foldl_apply`).
-/

namespace GridStyle.RuleStore

/-- What can be done to a rule store. -/
inductive Operation where
  /-- Add a declaration to a selector. -/
  | push (selector declaration : String)
  /-- Forget the declarations of cells. -/
  | dropCells
  deriving DecidableEq, Repr

/-- Do an operation. -/
def apply (s : RuleStore) : Operation → RuleStore
  | .push selector declaration => s.push selector declaration
  | .dropCells => s.dropCells

/-- Declarations with their selectors, in the order in which they were added. -/
abbrev Log := List (String × String)

namespace Log

/-- What an operation does to the log. -/
def record (log : Log) : Operation → Log
  | .push selector declaration =>
    if declaration = "" then log else log ++ [(selector, declaration)]
  | .dropCells => log.filter fun entry => ¬ "#cell-".toList <+: entry.1.toList

/-- The selectors in the order of their first entries. -/
def selectors (log : Log) : List String := (log.map Prod.fst).eraseDups

/-- The declarations of a selector. -/
def declarations (log : Log) (selector : String) : List String :=
  (log.filter fun entry => entry.1 = selector).map Prod.snd

/-- The selectors, each with its declarations. -/
def groups (log : Log) : Buckets :=
  log.selectors.map fun selector => (selector, log.declarations selector)

end Log

/-! ### First occurrences -/

section EraseDups

variable {α : Type} [BEq α] [LawfulBEq α]

theorem eraseDups_concat (as : List α) (a : α) :
    (as ++ [a]).eraseDups = if a ∈ as then as.eraseDups else as.eraseDups ++ [a] := by
  rw [List.eraseDups_append, List.removeAll, List.filter_singleton]
  by_cases h : a ∈ as <;> simp [h, List.eraseDups_cons]

theorem nodup_eraseDups (as : List α) : as.eraseDups.Nodup := by
  induction as using List.reverseRecOn with
  | nil => simp
  | append_singleton as a ih =>
    rw [eraseDups_concat]
    split
    · exact ih
    · next hnot =>
      rw [← List.concat_eq_append]
      exact List.Nodup.concat (by simpa using hnot) ih

theorem eraseDups_filter (p : α → Bool) (as : List α) :
    (as.filter p).eraseDups = as.eraseDups.filter p := by
  induction as using List.reverseRecOn with
  | nil => simp
  | append_singleton as a ih =>
    rw [List.filter_append, eraseDups_concat, List.filter_singleton]
    cases ha : p a with
    | true =>
      rw [cond_true, eraseDups_concat, ih]
      by_cases h : a ∈ as <;> simp [h, ha]
    | false =>
      rw [cond_false, List.append_nil, ih]
      by_cases h : a ∈ as <;> simp [h, ha]

end EraseDups

/-! ### Operations and entries -/

namespace Log

variable {log : Log}

/-- A selector has entries exactly if it has declarations. -/
theorem mem_selectors {selector : String} :
    selector ∈ log.selectors ↔ log.declarations selector ≠ [] := by
  rw [selectors, List.mem_eraseDups, declarations, Ne, List.map_eq_nil_iff,
    List.filter_eq_nil_iff]
  simp

/-- A new selector comes to the end. -/
theorem selectors_concat (selector declaration : String) :
    selectors (log ++ [(selector, declaration)]) =
      if selector ∈ log.selectors then log.selectors else log.selectors ++ [selector] := by
  rw [selectors, List.map_append, List.map_singleton, eraseDups_concat, selectors]
  simp only [List.mem_eraseDups]

/-- A new declaration comes to the end of those of its selector. -/
theorem declarations_concat (selector declaration other : String) :
    declarations (log ++ [(selector, declaration)]) other =
      if selector = other then log.declarations other ++ [declaration]
      else log.declarations other := by
  rw [declarations, List.filter_append, List.filter_singleton, declarations]
  by_cases h : selector = other <;> simp [h]

/-- Striking out the entries of some selectors strikes out these selectors. -/
theorem selectors_filter (p : String → Bool) :
    selectors (log.filter fun entry => p entry.1) = log.selectors.filter p := by
  rw [selectors, selectors, ← eraseDups_filter, List.filter_map]
  rfl

/-- The declarations of a selector are struck out as a whole. -/
theorem declarations_filter (p : String → Bool) (selector : String) :
    declarations (log.filter fun entry => p entry.1) selector =
      if p selector then log.declarations selector else [] := by
  rw [declarations, List.filter_filter, declarations]
  split
  · next hp =>
    refine congrArg _ (List.filter_congr fun entry _ => ?_)
    by_cases h : entry.1 = selector <;> simp [h, hp]
  · next hp =>
    rw [List.map_eq_nil_iff, List.filter_eq_nil_iff]
    rintro entry - hentry
    rw [Bool.and_eq_true, decide_eq_true_eq] at hentry
    exact hp (hentry.1 ▸ hentry.2)

end Log

/-- The store holds what the log says. -/
structure Shows (s : RuleStore) (log : Log) : Prop where
  /-- The selectors are those of the log. -/
  order_eq : s.order.toList = log.selectors
  /-- Every selector with an entry has its declarations. -/
  get?_eq : ∀ selector,
    s.get? selector =
      if log.declarations selector = [] then none else some (log.declarations selector)

namespace Shows

variable {s : RuleStore} {log : Log} (h : s.Shows log)

include h

theorem isSome_iff (selector : String) :
    (s.get? selector).isSome ↔ selector ∈ log.selectors := by
  rw [h.get?_eq, Log.mem_selectors]
  split <;> simp [*]

theorem wellFormed : s.WellFormed := by
  refine ⟨by rw [h.order_eq]; exact nodup_eraseDups _, fun selector => ?_⟩
  rw [h.order_eq, h.isSome_iff]

/-- Adding a declaration is adding an entry. -/
theorem push {declaration : String} (hne : declaration ≠ "") (selector : String) :
    (s.push selector declaration).Shows (log ++ [(selector, declaration)]) := by
  refine ⟨?_, fun other => ?_⟩
  · -- The order grows just by a selector that has no entry yet.
    rw [Log.selectors_concat]
    by_cases hmem : selector ∈ log.selectors
    · rw [if_pos hmem, order_push_of_mem ((h.isSome_iff _).2 hmem), h.order_eq]
    · rw [if_neg hmem, order_push_of_not_mem (fun hsome => hmem ((h.isSome_iff _).1 hsome)) hne,
        Array.toList_push, h.order_eq]
  · rw [get?_push, h.get?_eq, Log.declarations_concat]
    by_cases heq : selector = other
    · by_cases hnil : log.declarations other = [] <;> simp [hne, heq, hnil]
    · simp [heq]

/-- A reset strikes out the entries of cells. -/
theorem dropCells : s.dropCells.Shows (log.record .dropCells) := by
  have hcell : ∀ selector : String,
      Selector.isCell selector = decide ("#cell-".toList <+: selector.toList) := fun selector => by
    rw [Selector.isCell, Bool.eq_iff_iff, decide_eq_true_iff, List.isPrefixOf_iff_prefix]
  have hrecord : log.record .dropCells =
      log.filter fun entry => !Selector.isCell entry.1 :=
    List.filter_congr fun entry _ => by rw [hcell, decide_not]
  rw [hrecord]
  refine ⟨?_, fun selector => ?_⟩
  · rw [Log.selectors_filter (!Selector.isCell ·), RuleStore.dropCells, Array.toList_filter,
      h.order_eq]
  · rw [get?_dropCells, h.get?_eq, Log.declarations_filter (!Selector.isCell ·)]
    cases Selector.isCell selector <;> simp

/-- Every operation does to the store what it does to the log. -/
theorem apply (operation : Operation) : (s.apply operation).Shows (log.record operation) := by
  cases operation with
  | push selector declaration =>
    rw [RuleStore.apply, Log.record]
    split
    · next hempty => rwa [hempty, push_empty]
    · next hne => exact h.push hne selector
  | dropCells => exact h.dropCells

theorem foldl_apply (operations : List Operation) :
    (operations.foldl RuleStore.apply s).Shows (operations.foldl Log.record log) := by
  -- Store and log move together, so both are arbitrary.
  induction operations generalizing s log with
  | nil => exact h
  | cons operation operations ih => exact ih (h.apply operation)

/-- The view is the log grouped by selector. -/
theorem toList_eq : s.toList = log.groups := by
  rw [toList_eq_bucketsOf, h.order_eq, bucketsOf, Log.groups, ← List.filterMap_eq_map]
  refine List.filterMap_congr fun selector hmem => ?_
  simp [h.get?_eq, Log.mem_selectors.1 hmem]

end Shows

theorem shows_empty : ({} : RuleStore).Shows [] :=
  ⟨by simp [Log.selectors], fun selector => by rw [get?_empty]; rfl⟩

/-- After any operations on an empty store it shows the log of them grouped by selector: as a list,
selector by selector, and by the number of selectors. These are different, and each of them has
declarations. -/
theorem toList_foldl_apply (operations : List Operation) :
    let s := operations.foldl apply {}
    let log := operations.foldl Log.record []
    s.toList = log.groups ∧ (∀ selector, s.get? selector = log.groups.lookup selector) ∧
      s.size = log.groups.length ∧ (log.groups.map Prod.fst).Nodup ∧
      ∀ bucket ∈ log.groups, bucket.2 ≠ [] := by
  intro s log
  have h : s.Shows log := shows_empty.foldl_apply operations
  have hkeys : log.groups.map Prod.fst = log.selectors := by
    rw [Log.groups, List.map_map]
    exact List.map_id _
  refine ⟨h.toList_eq, fun selector => ?_, ?_, ?_, ?_⟩
  · rw [← h.toList_eq, h.wellFormed.lookup_toList]
  · rw [size, ← Array.length_toList, h.order_eq, Log.groups, List.length_map]
  · rw [hkeys]
    exact nodup_eraseDups _
  · rintro bucket hbucket
    obtain ⟨selector, hselector, rfl⟩ := List.mem_map.1 hbucket
    exact Log.mem_selectors.1 hselector

/-- A selector of a cell that was forgotten comes back behind one of the host that was not. -/
example : Log.groups ([.push "#cell-1-1-1" "a", .push ":host" "b", .push "#cell-1-1-1" "",
    .dropCells, .push "#cell-1-1-1" "c", .push ":host" "d"].foldl Log.record []) =
      [(":host", ["b", "d"]), ("#cell-1-1-1", ["c"])] := by
  decide +kernel

end GridStyle.RuleStore
