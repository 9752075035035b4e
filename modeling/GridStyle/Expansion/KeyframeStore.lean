import GridStyle.Token.Basic

/-!
# Keyframe Store

The keyframes definitions that were met so far. The first definition of a name stays.
-/

namespace GridStyle

/-- Keyframes definitions in the order in which they were met, of different names. -/
structure KeyframeStore where
  /-- The definitions. -/
  definitions : List Keyframes := []

namespace KeyframeStore

/-- A name has a definition. -/
def contains (s : KeyframeStore) (name : String) : Bool :=
  s.definitions.any fun k => k.name == name

/-- Add a definition unless its name has one. -/
def register (s : KeyframeStore) (k : Keyframes) : KeyframeStore :=
  if s.contains k.name then s else ⟨s.definitions ++ [k]⟩

/-- The names in order. -/
def names (s : KeyframeStore) : List String := s.definitions.map (·.name)

/-- The number of definitions. -/
def size (s : KeyframeStore) : Nat := s.definitions.length

/-- There are no definitions. -/
def isEmpty (s : KeyframeStore) : Bool := s.definitions.isEmpty

/-- A registered name has a definition. -/
theorem contains_register_self (s : KeyframeStore) (k : Keyframes) :
    (s.register k).contains k.name = true := by
  unfold register
  split
  · assumption
  · simp [contains]

/-- Names stay different. -/
theorem nodup_names_register {s : KeyframeStore} (h : s.names.Nodup) (k : Keyframes) :
    (s.register k).names.Nodup := by
  unfold register
  split
  · exact h
  · rename_i hc
    simp only [names, List.map_append, List.map_cons, List.map_nil]
    refine List.nodup_append.2 ⟨h, by simp, ?_⟩
    intro a ha b hb hab
    simp only [List.mem_singleton] at hb
    subst hb hab
    apply hc
    simpa [contains] using ha

end KeyframeStore

end GridStyle
