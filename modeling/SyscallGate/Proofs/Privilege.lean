/-
# Two ways to find the class are one

The class of a selector is found from its two low bits, or from the ring these
name. Both say the same, so it does not matter which of them a processor uses.

Key theorems: `CallerClass.ofRing_ofSelector`, `Ring.ofLevel_and_ringMask`,
`Recorder.Classifier.classify_eq`.
-/
import SyscallGate.Recorder

namespace SyscallGate

/-- The number of a ring, in two bits. -/
theorem and_ringMask_eq_zero_iff (selector : UInt16) :
    selector &&& ringMask = 0 ↔ selector.toNat.testBit 1 = false ∧ selector.toNat.testBit 0 = false := by
  have hmod := Nat.and_two_pow_sub_one_eq_mod selector.toNat 2
  rw [← UInt16.toNat_inj, UInt16.toNat_and]
  change selector.toNat &&& 2 ^ 2 - 1 = 0 ↔ _
  rw [hmod, Nat.testBit_zero, Nat.testBit_succ, Nat.testBit_zero]
  simp only [decide_eq_false_iff_not]
  omega

theorem CallerClass.ofRing_ofSelector (selector : UInt16) :
    CallerClass.ofRing (.ofSelector selector) = CallerClass.ofSelector selector := by
  rw [CallerClass.ofSelector, Ring.ofSelector]
  rcases h1 : selector.toNat.testBit 1 <;> rcases h0 : selector.toNat.testBit 0 <;>
    simp [CallerClass.ofRing, and_ringMask_eq_zero_iff, h1, h0]

/-- The level in the two low bits of a selector is that of its ring. -/
theorem Ring.ofLevel_and_ringMask (selector : UInt16) :
    Ring.ofLevel (selector &&& ringMask) = .ok (.ofSelector selector) := by
  have hlevel : (selector &&& ringMask).toNat =
      2 * (selector.toNat.testBit 1).toNat + (selector.toNat.testBit 0).toNat := by
    have hmod := Nat.and_two_pow_sub_one_eq_mod selector.toNat 2
    rw [UInt16.toNat_and, Nat.toNat_testBit, Nat.toNat_testBit]
    change selector.toNat &&& 2 ^ 2 - 1 = _
    rw [hmod]
    omega
  rw [ofLevel, ofSelector, hlevel]
  rcases selector.toNat.testBit 1 <;> rcases selector.toNat.testBit 0 <;> rfl

theorem Recorder.Classifier.classify_eq (classifier : Recorder.Classifier) (selector : UInt16) :
    classifier.classify selector = if selector &&& 3 = 0 then .mostPrivileged else .reduced := by
  cases classifier with
  | bySelector => rfl
  | byRing => exact CallerClass.ofRing_ofSelector selector

end SyscallGate
