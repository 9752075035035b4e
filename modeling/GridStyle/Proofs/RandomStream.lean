import GridStyle.Random
import Mathlib.Logic.Function.Iterate

/-!
# Streams of Random Words

One step of the generator mixes a word three times with a shift of itself. A shift distributes over
exclusive or and leaves nothing of a word when it is repeated (`IsShift`), so only zero is its own
shift, and a word can be told from its mix (`IsShift.mix_injective`). Hence the whole step is
injective (`step_injective`).

Each kind of draw takes one step (`state_leave`), so draws in a row take as many steps as there are
draws (`state_leaveAll`). No generator from a seed gets to zero, and two generators that differ go
on to differ (`streams_never_degenerate`).
-/

namespace GridStyle.Random

/-! ### Shifts -/

section Shifts

variable {w n : Nat} {shift : BitVec w → Nat → BitVec w}

/-- What shifting to the left and to the right have in common. -/
structure IsShift (shift : BitVec w → Nat → BitVec w) : Prop where
  /-- A shift by nothing does nothing. -/
  zero : ∀ x, shift x 0 = x
  /-- Two shifts in a row are one by the sum. -/
  add : ∀ x m n, shift x (m + n) = shift (shift x m) n
  /-- A shift acts on each bit for itself. -/
  xor : ∀ x y n, shift (x ^^^ y) n = shift x n ^^^ shift y n
  /-- A shift by the width leaves no bit. -/
  vanish : ∀ x n, w ≤ n → shift x n = 0#w

theorem isShift_left : IsShift fun (x : BitVec w) n => x <<< n :=
  ⟨BitVec.shiftLeft_zero, BitVec.shiftLeft_add, BitVec.shiftLeft_xor_distrib,
    fun _ _ => BitVec.shiftLeft_eq_zero⟩

theorem isShift_right : IsShift fun (x : BitVec w) n => x >>> n :=
  ⟨BitVec.ushiftRight_zero, BitVec.shiftRight_add, BitVec.ushiftRight_xor_distrib,
    fun _ _ => BitVec.ushiftRight_eq_zero⟩

/-- Only zero is its own shift. -/
theorem IsShift.eq_zero (h : IsShift shift) (hn : 0 < n) {x : BitVec w} (hfixed : shift x n = x) :
    x = 0#w := by
  have hrepeat : ∀ k, shift x (k * n) = x := by
    intro k
    induction k with
    | zero => rw [Nat.zero_mul, h.zero]
    | succ k ih => rw [Nat.succ_mul, h.add, ih, hfixed]
  rw [← hrepeat w]
  exact h.vanish x (w * n) (Nat.le_mul_of_pos_right w hn)

/-- Different words differ when they are mixed with their shifts: if they did not, what they differ
in would be its own shift. -/
theorem IsShift.mix_injective (h : IsShift shift) (hn : 0 < n) :
    Function.Injective fun x => x ^^^ shift x n := by
  intro x y hmix
  have hfixed : shift (x ^^^ y) n = x ^^^ y := calc
    shift (x ^^^ y) n = shift x n ^^^ shift y n := h.xor x y n
    _ = x ^^^ (x ^^^ shift x n) ^^^ shift y n := by
      rw [← BitVec.xor_assoc, BitVec.xor_self, BitVec.zero_xor]
    _ = x ^^^ (y ^^^ shift y n) ^^^ shift y n := by
      rw [show x ^^^ shift x n = y ^^^ shift y n from hmix]
    _ = x ^^^ y := by
      rw [BitVec.xor_assoc, BitVec.xor_assoc, BitVec.xor_self, BitVec.xor_zero]
  exact BitVec.xor_eq_zero_iff.1 (h.eq_zero hn hfixed)

end Shifts

/-! ### One step -/

/-- The number of places that a word is shifted by counts modulo the width. -/
theorem toBitVec_mixLeft (n x : UInt64) :
    (mixLeft n x).toBitVec = x.toBitVec ^^^ x.toBitVec <<< (n.toNat % 64) := by
  rw [mixLeft, UInt64.toBitVec_xor, UInt64.toBitVec_shiftLeft, BitVec.shiftLeft_eq']
  rfl

theorem toBitVec_mixRight (n x : UInt64) :
    (mixRight n x).toBitVec = x.toBitVec ^^^ x.toBitVec >>> (n.toNat % 64) := by
  rw [mixRight, UInt64.toBitVec_xor, UInt64.toBitVec_shiftRight, BitVec.ushiftRight_eq']
  rfl

theorem mixLeft_injective {n : UInt64} (hn : 0 < n.toNat % 64) :
    Function.Injective (mixLeft n) := by
  intro x y h
  have hmix := congrArg UInt64.toBitVec h
  rw [toBitVec_mixLeft, toBitVec_mixLeft] at hmix
  exact UInt64.toBitVec_inj.1 (isShift_left.mix_injective hn hmix)

theorem mixRight_injective {n : UInt64} (hn : 0 < n.toNat % 64) :
    Function.Injective (mixRight n) := by
  intro x y h
  have hmix := congrArg UInt64.toBitVec h
  rw [toBitVec_mixRight, toBitVec_mixRight] at hmix
  exact UInt64.toBitVec_inj.1 (isShift_right.mix_injective hn hmix)

/-- Different words have different next words. -/
theorem step_injective : Function.Injective step :=
  (mixLeft_injective (by decide)).comp
    ((mixRight_injective (by decide)).comp (mixLeft_injective (by decide)))

/-- Zero would stay zero, so nothing else gets there. -/
theorem iterate_step_ne_zero {x : UInt64} (hx : x ≠ 0) (n : Nat) : step^[n] x ≠ 0 := by
  have hzero : step^[n] 0 = 0 := Function.iterate_fixed (by decide) n
  exact fun h => hx (step_injective.iterate n (h.trans hzero.symm))

/-! ### Draws in a row -/

/-- What can be drawn from a generator. -/
inductive Draw where
  /-- A word. -/
  | word
  /-- A number from zero to below one. -/
  | unit
  /-- A number between two others. -/
  | range (low high : Float)
  /-- A number below a length. -/
  | index (length : Nat) (pos : 0 < length)

/-- The generator that a draw leaves. -/
def leave (r : Random) : Draw → Random
  | .word => r.next.2
  | .unit => r.unit.2
  | .range low high => (r.range low high).2
  | .index length _ => (r.index length).2

/-- The generator that draws in a row leave. -/
def leaveAll (draws : List Draw) (r : Random) : Random := draws.foldl leave r

/-- Whatever is drawn, the generator takes one step. -/
theorem state_leave (r : Random) (draw : Draw) : (r.leave draw).state = step r.state := by
  cases draw <;> rfl

theorem state_leaveAll (draws : List Draw) (r : Random) :
    (r.leaveAll draws).state = step^[draws.length] r.state := by
  induction draws generalizing r with
  | nil => rfl
  | cons draw draws ih =>
    rw [leaveAll, List.foldl_cons, ← leaveAll, ih, state_leave, List.length_cons,
      Function.iterate_succ_apply]

/-- Generators at different words stay at different words if equally many draws are made from
both. -/
theorem state_leaveAll_ne {r s : Random} (h : r ≠ s) {draws others : List Draw}
    (hlength : draws.length = others.length) :
    (r.leaveAll draws).state ≠ (s.leaveAll others).state := by
  rw [state_leaveAll, state_leaveAll, hlength]
  refine (step_injective.iterate others.length).ne fun hstate => h ?_
  exact congrArg Random.mk hstate

theorem state_ofSeed_ne_zero (seed : UInt64) : (ofSeed seed).state ≠ 0 := by
  by_cases hseed : seed = 0
  · rw [ofSeed, if_pos hseed]
    decide
  · rw [ofSeed, if_neg hseed]
    exact hseed

/-- Whatever is drawn, and however often, a generator from a seed does not stand at zero, and zero
is not the next word. The step from generator to generator is injective. Two generators that differ
still do after any equal number of draws, and then they draw different words. -/
theorem streams_never_degenerate :
    (∀ (seed : UInt64) (draws : List Draw), ((ofSeed seed).leaveAll draws).state ≠ 0 ∧
      ((ofSeed seed).leaveAll draws).next.1 ≠ 0) ∧
    (Function.Injective fun r : Random => r.next.2) ∧
    ∀ r s : Random, r ≠ s → ∀ draws others : List Draw, draws.length = others.length →
      r.leaveAll draws ≠ s.leaveAll others ∧
        (r.leaveAll draws).next.1 ≠ (s.leaveAll others).next.1 := by
  refine ⟨fun seed draws => ?_, fun r s h => ?_, fun r s h draws others hlength => ?_⟩
  · have hstate : ((ofSeed seed).leaveAll draws).state ≠ 0 := by
      rw [state_leaveAll]
      exact iterate_step_ne_zero (state_ofSeed_ne_zero seed) draws.length
    exact ⟨hstate, iterate_step_ne_zero hstate 1⟩
  · have hstep : step r.state = step s.state := congrArg Random.state h
    exact congrArg Random.mk (step_injective hstep)
  · have hstate := state_leaveAll_ne h hlength
    exact ⟨fun heq => hstate (congrArg Random.state heq), step_injective.ne hstate⟩

/-- The seed zero, and one more than the seed that stands for it. -/
theorem streams_never_degenerate_of_zero :
    ofSeed 0 ≠ ofSeed (defaultSeed + 1) ∧
    ((ofSeed 0).leaveAll [.word, .unit, .range 2 5, .index 4 (by decide)]).next.1 ≠ 0 ∧
    ((ofSeed 0).leaveAll [.word, .unit, .range 2 5, .index 4 (by decide)]).next.1 ≠
      ((ofSeed (defaultSeed + 1)).leaveAll [.word, .word, .index 3 (by decide), .unit]).next.1 := by
  have hne : ofSeed 0 ≠ ofSeed (defaultSeed + 1) := by decide
  obtain ⟨hzero, -, hdiffer⟩ := streams_never_degenerate
  exact ⟨hne, (hzero 0 _).2, (hdiffer _ _ hne _ _ rfl).2⟩

end GridStyle.Random
