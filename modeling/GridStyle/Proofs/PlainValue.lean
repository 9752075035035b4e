import GridStyle.Proofs.Conditions

/-!
# Values Without Calls

A value that is text and calls no function always composes to the same texts, whatever the shared
context is (`exists_settles_groupTexts`).
-/

namespace GridStyle

/-- The value is text and calls no function. -/
def IsPlain (value : List ValueGroup) : Prop :=
  ∀ group ∈ value, ∀ node ∈ group, ∃ text, node = .text text

namespace Action.Settles

variable {α β : Type}

theorem pure (a : α) : (pure a : Action α).Settles a := fun _ => rfl

theorem bind {action : Action α} {next : α → Action β} {a : α} {b : β} (h : action.Settles a)
    (hnext : (next a).Settles b) : (action >>= next).Settles b := by
  intro c
  rw [perform_bind, h c]
  exact hnext c

end Action.Settles

section Plain

variable (functions : FunctionRegistry) (cell : Cell)

/-- The texts of a plain value do not depend on the shared context. -/
theorem exists_settles_groupText {group : ValueGroup}
    (h : ∀ node ∈ group, ∃ text, node = .text text) :
    ∃ text, (groupText functions cell group []).Settles text := by
  suffices hnodes : ∃ texts, (nodeTexts functions cell group []).Settles texts by
    obtain ⟨texts, htexts⟩ := hnodes
    exact ⟨String.join texts, htexts.bind (.pure _)⟩
  induction group with
  | nil => exact ⟨[], .pure []⟩
  | cons node group ih =>
    rw [List.forall_mem_cons] at h
    obtain ⟨⟨text, rfl⟩, hgroup⟩ := h
    obtain ⟨texts, htexts⟩ := ih hgroup
    refine ⟨text :: texts, ?_⟩
    rw [nodeTexts, nodeText]
    exact Action.Settles.bind (.pure text) (htexts.bind (.pure _))

theorem exists_settles_groupTexts {value : List ValueGroup} (h : IsPlain value) :
    ∃ texts, (groupTexts functions cell value).Settles texts := by
  suffices hgroups : ∃ texts,
      (value.mapM fun group => groupText functions cell group []).Settles texts by
    obtain ⟨texts, htexts⟩ := hgroups
    exact ⟨texts.filter (!·.isEmpty), htexts.bind (.pure _)⟩
  induction value with
  | nil => exact ⟨[], .pure []⟩
  | cons group value ih =>
    rw [IsPlain, List.forall_mem_cons] at h
    obtain ⟨text, htext⟩ := exists_settles_groupText functions cell h.1
    obtain ⟨texts, htexts⟩ := ih h.2
    refine ⟨text :: texts, ?_⟩
    rw [List.mapM_cons]
    exact htext.bind (htexts.bind (.pure _))

end Plain

end GridStyle
