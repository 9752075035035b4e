import GridStyle.Proofs.Progressions

/-!
# Progressions at the Ends of the Range

To find out whether a progression contains a number, a difference, a remainder and a quotient of
words are taken. The divisor is never zero, and of a difference that is a word there are a remainder
and a quotient. But the difference is not always a word, and then nothing is found out
(`Progression.contains_faults`), although the progression may contain the number
(`Progression.least_offset_faults`).
-/

namespace GridStyle

namespace Progression

/-- Without a distance nothing is found out. -/
theorem contains_of_fault {p : Progression} {index : Int64} {fault : WordFault}
    (hstep : p.step ≠ 0) (h : WordFault.difference index p.offset = .error fault) :
    p.contains index = .error fault := by
  rw [contains, if_neg hstep, h]
  rfl

/-- Whether a progression has a number of a cell is found out without a division by zero, and
without a remainder or a quotient that is out of range. The distance to the number is out of range,
for a progression that does not stand still, if the offset is at the low end of the range. In all
other cases it is found out whether the number is a member. -/
theorem contains_faults (p : Progression) {n : Nat} (hn : n < 2 ^ 32) :
    let far := p.step ≠ 0 ∧ p.offset.toInt ≤ n - 2 ^ 63
    (∀ fault, p.contains (Int64.ofNat n) = .error fault ↔ fault = .overflow ∧ far) ∧
    (far → WordFault.difference (Int64.ofNat n) p.offset = .error .overflow) ∧
    (¬ far → ∃ holds, p.contains (Int64.ofNat n) = .ok holds ∧
      (holds = true ↔ ∃ k : Nat, p.step.toInt * k + p.offset.toInt = n)) := by
  dsimp only
  have hdistance : p.step ≠ 0 ∧ p.offset.toInt ≤ n - 2 ^ 63 →
      WordFault.difference (Int64.ofNat n) p.offset = .error .overflow := fun hfar => by
    rw [difference_eq hn, if_pos hfar.2]
  have hmembers : ¬ (p.step ≠ 0 ∧ p.offset.toInt ≤ n - 2 ^ 63) →
      ∃ holds, p.contains (Int64.ofNat n) = .ok holds ∧
        (holds = true ↔ ∃ k : Nat, p.step.toInt * k + p.offset.toInt = n) := fun hnear =>
    exists_contains_eq hn fun hstep => Int.not_le.1 fun hle => hnear ⟨hstep, hle⟩
  refine ⟨fun fault => ?_, hdistance, hmembers⟩
  by_cases hfar : p.step ≠ 0 ∧ p.offset.toInt ≤ n - 2 ^ 63
  · rw [contains_of_fault hfar.1 (hdistance hfar), Except.error.injEq]
    exact ⟨fun h => ⟨h.symm, hfar⟩, fun h => h.1.symm⟩
  · obtain ⟨holds, heq, -⟩ := hmembers hfar
    rw [heq]
    exact iff_of_false nofun fun h => hfar h.2

/-- The distance from the offset of `2n+1` to five is a word, and five is found to be a member. -/
theorem contains_faults_of_odd :
    (⟨2, 1⟩ : Progression).contains (Int64.ofNat 5) = .ok true ∧
      ∃ k : Nat, (2 : Int64).toInt * k + (1 : Int64).toInt = (5 : Nat) := by
  obtain ⟨-, -, hmembers⟩ := contains_faults ⟨2, 1⟩ (show 5 < 2 ^ 32 by decide)
  obtain ⟨holds, heq, hmember⟩ := hmembers (by decide)
  have hfound : (⟨2, 1⟩ : Progression).contains (Int64.ofNat 5) = .ok true := by decide
  exact ⟨hfound, hmember.1 (Except.ok.inj (heq.symm.trans hfound))⟩

/-- One is a member of the progression with the step one and the least offset, but its distance is
no word. So it is with the step minus one and the next offset, of which one is no member. -/
theorem least_offset_faults :
    (∃ p, read "n-9223372036854775808" = some p ∧
      p.contains (Int64.ofNat 1) = .error .overflow ∧
      p.step.toInt * (2 ^ 63 + 1 : Nat) + p.offset.toInt = 1) ∧
    ∃ p, read "-n-9223372036854775807" = some p ∧
      p.contains (Int64.ofNat 1) = .error .overflow := by
  refine ⟨⟨⟨1, Int64.minValue⟩, ?_, ?_, ?_⟩, ⟨⟨-1, Int64.minValue + 1⟩, ?_, ?_⟩⟩ <;>
    decide +kernel

end Progression

end GridStyle
