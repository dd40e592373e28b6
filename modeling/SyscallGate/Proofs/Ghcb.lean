/-
# What a request in the GHCB MSR tells

Whoever reads a request takes it apart again: the low twelve bits say what is asked
for, and a termination has four bits of the reason set above them and the reason
code above those. Nothing is masked when a termination is put together, so the two
overlap from bit 16 on (`testBit_terminateRequest`): what a set has over four bits
is read as part of the code (`terminateRequest_eq_spilled`), and what comes past bit
63 is lost. A reason that fits is read as it was given (`fields_of_fits`). No
request to run a level is taken for a termination.

Key theorems: `Ghcb.eq_iff_fields`, `Ghcb.testBit_terminateRequest`,
`Ghcb.terminateRequest_eq_iff`, `Ghcb.terminateRequest_eq_spilled`,
`Ghcb.fields_of_fits`, `Ghcb.requests_told_apart`.
-/
import Mathlib.Algebra.Group.Nat.Defs
import SyscallGate.Ghcb

namespace SyscallGate
namespace Ghcb

/-! ### The parts of a value -/

theorem toNat_info (value : UInt64) : (info value).toNat = value.toNat % 2 ^ 12 := by
  rw [info, UInt64.toNat_and]
  exact Nat.and_two_pow_sub_one_eq_mod _ 12

theorem toNat_setField (value : UInt64) : (value >>> 12 &&& 0xf).toNat = value.toNat / 2 ^ 12 % 2 ^ 4 := by
  rw [UInt64.toNat_and, UInt64.toNat_shiftRight, ← Nat.shiftRight_eq_div_pow]
  exact Nat.and_two_pow_sub_one_eq_mod _ 4

theorem toNat_lowSet (reasonSet : UInt64) : (reasonSet &&& 0xf).toNat = reasonSet.toNat % 2 ^ 4 := by
  rw [UInt64.toNat_and]
  exact Nat.and_two_pow_sub_one_eq_mod _ 4

theorem toNat_codeField (value : UInt64) : (value >>> 16).toNat = value.toNat / 2 ^ 16 := by
  rw [UInt64.toNat_shiftRight, ← Nat.shiftRight_eq_div_pow]
  rfl

theorem eq_iff_fields {value other : UInt64} :
    value = other ↔
      info value = info other ∧ value >>> 12 &&& (0xf : UInt64) = other >>> 12 &&& (0xf : UInt64) ∧
        (value >>> 16).toNat = (other >>> 16).toNat := by
  refine ⟨fun h => by rw [h]; exact ⟨rfl, rfl, rfl⟩, ?_⟩
  rintro ⟨hinfo, hset, hcode⟩
  rw [← UInt64.toNat_inj] at hinfo hset ⊢
  rw [toNat_info, toNat_info] at hinfo
  rw [toNat_setField, toNat_setField] at hset
  rw [toNat_codeField, toNat_codeField] at hcode
  omega

/-! ### Terminations -/

/-- Where the bits of a termination come from: the set is put in at bit 12 and the
code at bit 16, so they overlap from there on. -/
theorem testBit_terminateRequest (reasonSet reasonCode : UInt64) (i : Nat) :
    (terminateRequest reasonSet reasonCode).toNat.testBit i =
      (decide (8 = i) || decide (i < 64) && (decide (i ≥ 12) && reasonSet.toNat.testBit (i - 12)) ||
        decide (i < 64) && (decide (i ≥ 16) && reasonCode.toNat.testBit (i - 16))) := by
  have hvalue : (terminateRequest reasonSet reasonCode).toNat =
      2 ^ 8 ||| reasonSet.toNat <<< 12 % 2 ^ 64 ||| reasonCode.toNat <<< 16 % 2 ^ 64 := by
    rw [terminateRequest, UInt64.toNat_or, UInt64.toNat_or, UInt64.toNat_shiftLeft, UInt64.toNat_shiftLeft]
    rfl
  rw [hvalue, Nat.testBit_or, Nat.testBit_or, Nat.testBit_two_pow, Nat.testBit_mod_two_pow, Nat.testBit_mod_two_pow,
    Nat.testBit_shiftLeft, Nat.testBit_shiftLeft]

section Terminate

variable (reasonSet reasonCode : UInt64)

theorem info_terminateRequest : info (terminateRequest reasonSet reasonCode) = terminateCode := by
  have hcode : terminateCode.toNat = 2 ^ 8 := rfl
  rw [← UInt64.toNat_inj, toNat_info, hcode]
  refine Nat.eq_of_testBit_eq fun i => ?_
  rw [Nat.testBit_mod_two_pow, testBit_terminateRequest, Nat.testBit_two_pow]
  by_cases hi : i < 12
  · simp [hi, show ¬ 12 ≤ i by omega, show ¬ 16 ≤ i by omega]
  · simp [hi, show ¬ 8 = i by omega]

theorem setField_terminateRequest :
    terminateRequest reasonSet reasonCode >>> 12 &&& 0xf = reasonSet &&& 0xf := by
  rw [← UInt64.toNat_inj, toNat_setField, toNat_lowSet, ← Nat.shiftRight_eq_div_pow]
  refine Nat.eq_of_testBit_eq fun i => ?_
  rw [Nat.testBit_mod_two_pow, Nat.testBit_mod_two_pow, Nat.testBit_shiftRight, testBit_terminateRequest]
  by_cases hi : i < 4
  · simp [hi, show ¬ 8 = 12 + i by omega, show 12 + i < 64 by omega, show ¬ 16 ≤ 12 + i by omega]
  · simp [hi]

/-- The code is read with the rest of the set in it, and cut off at 48 bits. -/
theorem toNat_codeField_terminateRequest :
    (terminateRequest reasonSet reasonCode >>> 16).toNat = (reasonCode ||| reasonSet >>> 4).toNat % 2 ^ 48 := by
  have hspilled : (reasonCode ||| reasonSet >>> 4).toNat = reasonCode.toNat ||| reasonSet.toNat >>> 4 := by
    rw [UInt64.toNat_or, UInt64.toNat_shiftRight]
    rfl
  rw [toNat_codeField, hspilled, ← Nat.shiftRight_eq_div_pow]
  refine Nat.eq_of_testBit_eq fun i => ?_
  rw [Nat.testBit_mod_two_pow, Nat.testBit_shiftRight, Nat.testBit_or, Nat.testBit_shiftRight, testBit_terminateRequest]
  by_cases hi : i < 48
  · simp [hi, show ¬ 8 = 16 + i by omega, show 16 + i < 64 by omega, show 12 ≤ 16 + i by omega,
      show 16 + i - 12 = 4 + i by omega, Bool.or_comm]
  · simp [hi, show ¬ 8 = 16 + i by omega, show ¬ 16 + i < 64 by omega]

/-- Two terminations are the same request just if they are read the same. -/
theorem terminateRequest_eq_iff (reasonSet reasonCode reasonSet' reasonCode' : UInt64) :
    terminateRequest reasonSet reasonCode = terminateRequest reasonSet' reasonCode' ↔
      reasonSet &&& 0xf = reasonSet' &&& 0xf ∧
        (reasonCode ||| reasonSet >>> 4).toNat % 2 ^ 48 = (reasonCode' ||| reasonSet' >>> 4).toNat % 2 ^ 48 := by
  rw [eq_iff_fields, info_terminateRequest, info_terminateRequest, setField_terminateRequest,
    setField_terminateRequest, toNat_codeField_terminateRequest, toNat_codeField_terminateRequest]
  exact and_iff_right rfl

/-- A set of more than four bits asks for the same as its four low bits, with the rest
in the code. -/
theorem terminateRequest_eq_spilled : terminateRequest reasonSet reasonCode =
    terminateRequest (reasonSet &&& 0xf) (reasonCode ||| reasonSet >>> 4) := by
  have hlow : reasonSet &&& 0xf = reasonSet &&& 0xf &&& 0xf := by
    rw [UInt64.and_assoc, UInt64.and_self]
  have hnothing : (reasonSet &&& 0xf) >>> 4 = 0 := by
    rw [← UInt64.toNat_inj, UInt64.toNat_shiftRight, toNat_lowSet]
    exact Nat.shiftRight_eq_zero _ _ (Nat.mod_lt _ (by decide))
  rw [terminateRequest_eq_iff, hnothing, UInt64.or_zero]
  exact ⟨hlow, rfl⟩

end Terminate

theorem fields_of_fits {reasonSet reasonCode : UInt64} (hset : reasonSet.toNat < 16) (hcode : reasonCode.toNat < 2 ^ 48) :
    terminateRequest reasonSet reasonCode >>> 12 &&& 0xf = reasonSet ∧
      terminateRequest reasonSet reasonCode >>> 16 = reasonCode := by
  have hlow : reasonSet &&& 0xf = reasonSet := by
    rw [← UInt64.toNat_inj, toNat_lowSet]
    exact Nat.mod_eq_of_lt hset
  have hnothing : reasonSet >>> 4 = 0 := by
    rw [← UInt64.toNat_inj, UInt64.toNat_shiftRight]
    exact Nat.shiftRight_eq_zero _ _ hset
  refine ⟨by rw [setField_terminateRequest, hlow], ?_⟩
  rw [← UInt64.toNat_inj, toNat_codeField_terminateRequest, hnothing, UInt64.or_zero]
  exact Nat.mod_eq_of_lt hcode

/-! ### Requests to run a level -/

/-- A request to run a level has nothing but its code and the level. -/
theorem runRequest_parts (level : Vmpl) :
    info (runRequest level) = runCode ∧ (lowerHalf (runRequest level)).toUInt64 = runCode ∧
      (upperHalf (runRequest level)).toUInt64 = level.number := by
  cases level <;> decide

/-- **Requests are told apart, and read as they were put together.** A termination is
known by its low twelve bits; the four bits above are those of the set, and above them
the code is read, with what the set has over four bits, as far as there are bits. So a
reason that fits is read as it was given, and two of those that ask for the same are
one; a set that does not fit asks for what its low bits do, with the rest in the
code. A request to run a level has its code in the lower half and the level in the
upper. No termination is a request to run a level, nor has it the same code. -/
theorem requests_told_apart :
    (∀ reasonSet reasonCode : UInt64,
      let value := terminateRequest reasonSet reasonCode
      info value = 0x100 ∧ (value >>> 12) &&& 0xf = reasonSet &&& 0xf ∧
        (value >>> 16).toNat = (reasonCode ||| reasonSet >>> 4).toNat % 2 ^ 48 ∧
        value = terminateRequest (reasonSet &&& 0xf) (reasonCode ||| reasonSet >>> 4) ∧
        (reasonSet.toNat < 16 → reasonCode.toNat < 2 ^ 48 →
          (value >>> 12) &&& 0xf = reasonSet ∧ value >>> 16 = reasonCode ∧
          ∀ reasonSet' reasonCode' : UInt64, reasonSet'.toNat < 16 → reasonCode'.toNat < 2 ^ 48 →
            value = terminateRequest reasonSet' reasonCode' → reasonSet = reasonSet' ∧ reasonCode = reasonCode')) ∧
      (∀ level : Vmpl,
        info (runRequest level) = 0x16 ∧ (lowerHalf (runRequest level)).toUInt64 = 0x16 ∧
          (upperHalf (runRequest level)).toUInt64 = level.number) ∧
      ∀ level reasonSet reasonCode, runRequest level ≠ terminateRequest reasonSet reasonCode ∧
        info (runRequest level) ≠ info (terminateRequest reasonSet reasonCode) := by
  refine ⟨fun reasonSet reasonCode => ?_, runRequest_parts, fun level reasonSet reasonCode => ?_⟩
  · refine ⟨info_terminateRequest _ _, setField_terminateRequest _ _, toNat_codeField_terminateRequest _ _,
      terminateRequest_eq_spilled _ _, fun hset hcode => ?_⟩
    obtain ⟨hreadSet, hreadCode⟩ := fields_of_fits hset hcode
    refine ⟨hreadSet, hreadCode, fun reasonSet' reasonCode' hset' hcode' hsame => ?_⟩
    obtain ⟨hreadSet', hreadCode'⟩ := fields_of_fits hset' hcode'
    rw [← hsame] at hreadSet' hreadCode'
    exact ⟨hreadSet.symm.trans hreadSet', hreadCode.symm.trans hreadCode'⟩
  · have hother : info (runRequest level) ≠ info (terminateRequest reasonSet reasonCode) := by
      rw [(runRequest_parts level).1, info_terminateRequest]
      decide
    exact ⟨fun hsame => hother (congrArg info hsame), hother⟩

/-- The largest reason that fits is read as it was given. -/
theorem requests_told_apart_largest :
    let value := terminateRequest 15 0xffffffffffff
    (15 : UInt64).toNat < 16 ∧ (0xffffffffffff : UInt64).toNat < 2 ^ 48 ∧
      (value >>> 12) &&& 0xf = 15 ∧ value >>> 16 = 0xffffffffffff := by
  intro value
  have hset : (15 : UInt64).toNat < 16 := by decide
  have hcode : (0xffffffffffff : UInt64).toNat < 2 ^ 48 := by decide
  obtain ⟨-, -, -, -, hfits⟩ := requests_told_apart.1 15 0xffffffffffff
  obtain ⟨hreadSet, hreadCode, -⟩ := hfits hset hcode
  exact ⟨hset, hcode, hreadSet, hreadCode⟩

end Ghcb
end SyscallGate
