/-
# Arithmetic on the way does not show in the flags

The entry code saves the flags, works, and loads them again. Its work changes
outcome flags only, and these are among the flags that a load brings back, so
after it the word is the saved one in all its bits. In between, one flag is
read: the zero flag says whether the last result was zero.

Key definitions: `Flags.Same`.
Key theorems: `Flags.ofResult_same`, `Flags.load_of_same`,
`Flags.load_and_loadable`, `Flags.load_and_not_loadable`,
`Flags.ofResult_and_zero`.
-/
import SyscallGate.Flags

namespace SyscallGate
namespace Flags

theorem or_and_right (a b c : UInt64) : (a ||| b) &&& c = (a &&& c) ||| (b &&& c) := by
  rw [← UInt64.toBitVec_inj]
  ext i
  simp [Bool.and_or_distrib_right]

theorem and_not_or_and (word mask : UInt64) : (word &&& ~~~mask) ||| (word &&& mask) = word := by
  rw [← UInt64.toBitVec_inj]
  ext i
  simp only [UInt64.toBitVec_or, UInt64.toBitVec_and, UInt64.toBitVec_not, BitVec.getElem_or,
    BitVec.getElem_and, BitVec.getElem_not]
  cases word.toBitVec[i] <;> cases mask.toBitVec[i] <;> rfl

theorem put_and_other (flags : UInt64) {mask other : UInt64} (on : Bool) (h : mask &&& other = 0) :
    put flags mask on &&& other = flags &&& other := by
  cases on with
  | true => simp [put, or_and_right, h]
  | false =>
    have hkept := and_not_or_and other mask
    rw [UInt64.and_comm other mask, h, UInt64.or_zero] at hkept
    rw [put, if_neg Bool.false_ne_true, UInt64.and_assoc, UInt64.and_comm (~~~mask), hkept]

theorem put_and_self (flags mask : UInt64) (on : Bool) :
    put flags mask on &&& mask = if on then mask else 0 := by
  cases on with
  | true =>
    rw [put, if_pos rfl, if_pos rfl, ← UInt64.toBitVec_inj]
    ext i
    simp only [UInt64.toBitVec_or, UInt64.toBitVec_and, BitVec.getElem_and, BitVec.getElem_or]
    cases flags.toBitVec[i] <;> cases mask.toBitVec[i] <;> rfl
  | false => simp [put, UInt64.and_assoc]

/-- Two words that differ in loadable flags only. -/
def Same (f g : UInt64) : Prop := f &&& ~~~loadable = g &&& ~~~loadable

theorem Same.trans {f g h : UInt64} (hfg : Same f g) (hgh : Same g h) : Same f h := Eq.trans hfg hgh

theorem put_same (flags : UInt64) {mask : UInt64} (on : Bool) (h : mask &&& ~~~loadable = 0) :
    Same (put flags mask on) flags := put_and_other flags on h

/-- What an instruction does to the flags can be loaded away. -/
theorem ofResult_same (flags : UInt64) (lowByte : UInt8) (isZero negative : Bool) :
    Same (ofResult flags lowByte isZero negative) flags :=
  (put_same _ _ (by decide)).trans <| (put_same _ _ (by decide)).trans <|
    (put_same _ _ (by decide)).trans (put_same flags false (by decide : outcome &&& ~~~loadable = 0))

/-- Loading flags over a word that differs in loadable flags only gives them back. -/
theorem load_of_same {old new : UInt64} (h : Same old new) : load old new = new := by
  rw [load, h]
  exact and_not_or_and new loadable

theorem load_and_loadable (old new : UInt64) : load old new &&& loadable = new &&& loadable := by
  have hnone : ~~~loadable &&& loadable = 0 := by decide
  rw [load, or_and_right, UInt64.and_assoc, hnone, UInt64.and_zero, UInt64.zero_or, UInt64.and_assoc,
    UInt64.and_self]

theorem load_and_not_loadable (old new : UInt64) : load old new &&& ~~~loadable = old &&& ~~~loadable := by
  have hnone : loadable &&& ~~~loadable = 0 := by decide
  rw [load, or_and_right, UInt64.and_assoc, UInt64.and_self, UInt64.and_assoc, hnone, UInt64.and_zero,
    UInt64.or_zero]

theorem load_of_and_loadable {old new : UInt64} (h : new &&& loadable = old &&& loadable) : load old new = old := by
  rw [load, h]
  exact and_not_or_and old loadable

theorem ofResult_and_zero (flags : UInt64) (lowByte : UInt8) (isZero negative : Bool) :
    ofResult flags lowByte isZero negative &&& zero = if isZero then zero else 0 := by
  rw [ofResult, put_and_other _ _ (by decide), put_and_self]

end Flags
end SyscallGate
