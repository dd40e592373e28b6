/-
# A return word and its outcome

One caller splits return words by their size, another looks at their sign. They see
the same: the 4095 largest words are the negations of 1 to 4095, and with a sign the
numbers from -4095 to -1.

Splitting a word loses nothing: an outcome has one word that stands for it, or none
(`Outcome.toReturn_ofReturn`). None stands for a failure without a number, or with one
above 4095, nor for a value as large as the words of failures
(`Outcome.ofReturn_lossless`).

Key theorems: `toInt_toInt64`, `Outcome.ofReturn_eq_failure_iff`,
`Outcome.ofReturn_eq_value_iff`, `Outcome.ofReturn_neg`,
`Outcome.toReturn_ofReturn`, `Outcome.ofReturn_lossless`.
-/
import Mathlib.Algebra.Ring.Int.Defs
import Mathlib.Algebra.Ring.Nat
import SyscallGate.Outcome

namespace SyscallGate

/-- The upper half of the words is negative. -/
theorem toInt_toInt64 (word : UInt64) :
    word.toInt64.toInt = if 2 * word.toNat < 2 ^ 64 then (word.toNat : Int) else word.toNat - 2 ^ 64 :=
  BitVec.toInt_eq_toNat_cond word.toBitVec

theorem toNat_neg_of_pos {word : UInt64} (h : 0 < word.toNat) : (-word).toNat = 2 ^ 64 - word.toNat := by
  rw [UInt64.toNat_neg]
  exact Nat.mod_eq_of_lt (by change 2 ^ 64 - word.toNat < 2 ^ 64; omega)

theorem toInt_toInt64_neg {e : UInt64} (hpos : 1 ≤ e.toNat) (hle : e.toNat ≤ 4095) :
    (-e).toInt64.toInt = -(e.toNat : Int) := by
  rw [toInt_toInt64, toNat_neg_of_pos hpos]
  omega

theorem eq_neg_iff_toInt {e : UInt64} (hpos : 1 ≤ e.toNat) (hle : e.toNat ≤ 4095) (word : UInt64) :
    word = -e ↔ word.toInt64.toInt = -(e.toNat : Int) := by
  rw [← toInt_toInt64_neg hpos hle]
  refine ⟨fun h => h ▸ rfl, fun h => ?_⟩
  rw [← UInt64.toUInt64_toInt64 word, Int64.toInt_inj.mp h, UInt64.toUInt64_toInt64]

namespace Outcome

theorem largest_le_iff (word : UInt64) : -Errno.largest ≤ word ↔ 2 ^ 64 - 4095 ≤ word.toNat := by
  have hlargest : (-Errno.largest).toNat = 2 ^ 64 - 4095 := by decide
  rw [UInt64.le_iff_toNat_le, hlargest]

/-- The words that stand for failures are those from -4095 to -1. -/
theorem largest_le_iff_toInt (word : UInt64) :
    -Errno.largest ≤ word ↔ -4095 ≤ word.toInt64.toInt ∧ word.toInt64.toInt ≤ -1 := by
  have hlt : word.toNat < 2 ^ 64 := word.toNat_lt
  rw [largest_le_iff, toInt_toInt64]
  omega

/-- **A failure is what the negative number says.** -/
theorem ofReturn_eq_failure_iff (word e : UInt64) :
    ofReturn word = .failure ⟨e⟩ ↔ 1 ≤ e.toNat ∧ e.toNat ≤ 4095 ∧ word.toInt64.toInt = -(e.toNat : Int) := by
  have hlt : word.toNat < 2 ^ 64 := word.toNat_lt
  rw [ofReturn]
  constructor
  · intro h
    by_cases hlarge : -Errno.largest ≤ word
    · rw [if_pos hlarge] at h
      obtain rfl : -word = e := congrArg Errno.number (failure.inj h)
      have hsize := (largest_le_iff word).mp hlarge
      rw [toInt_toInt64, toNat_neg_of_pos (by omega)]
      omega
    · rw [if_neg hlarge] at h
      cases h
  · rintro ⟨hpos, hle, hword⟩
    have hlarge : -Errno.largest ≤ word := (largest_le_iff_toInt word).mpr (by omega)
    rw [if_pos hlarge, (eq_neg_iff_toInt hpos hle word).mpr hword, UInt64.neg_neg]

/-- **Every other word is the value of a call that succeeded.** -/
theorem ofReturn_eq_value_iff (word : UInt64) :
    ofReturn word = .value word ↔ word.toInt64.toInt < -4095 ∨ -1 < word.toInt64.toInt := by
  have hlarge := largest_le_iff_toInt word
  rw [ofReturn]
  by_cases h : -Errno.largest ≤ word
  · rw [if_pos h]
    have hread := hlarge.mp h
    exact ⟨nofun, fun hother => by omega⟩
  · rw [if_neg h]
    have hread := mt hlarge.mpr h
    exact ⟨fun _ => by omega, fun _ => rfl⟩

theorem ofReturn_neg {e : UInt64} (hpos : 1 ≤ e.toNat) (hle : e.toNat ≤ 4095) : ofReturn (-e) = .failure ⟨e⟩ :=
  (ofReturn_eq_failure_iff _ _).mpr ⟨hpos, hle, toInt_toInt64_neg hpos hle⟩

/-! ### One word for an outcome -/

theorem ofReturn_eq_failure_iff_toNat (word e : UInt64) :
    ofReturn word = .failure ⟨e⟩ ↔ 1 ≤ e.toNat ∧ e.toNat ≤ 4095 ∧ word.toNat = 2 ^ 64 - e.toNat := by
  have hword : word.toNat < 2 ^ 64 := word.toNat_lt
  rw [ofReturn_eq_failure_iff, toInt_toInt64]
  omega

theorem ofReturn_eq_value_iff_toNat (word : UInt64) :
    ofReturn word = .value word ↔ word.toNat < 2 ^ 64 - 4095 := by
  have hword : word.toNat < 2 ^ 64 := word.toNat_lt
  rw [ofReturn_eq_value_iff, toInt_toInt64]
  omega

theorem exists_failure_iff (word : UInt64) :
    (∃ e, ofReturn word = .failure ⟨e⟩) ↔ 2 ^ 64 - 4095 ≤ word.toNat := by
  rw [← largest_le_iff, ofReturn]
  by_cases h : -Errno.largest ≤ word
  · rw [if_pos h]
    exact iff_of_true ⟨-word, rfl⟩ h
  · rw [if_neg h]
    exact iff_of_false nofun h

/-- **The word comes back from its outcome.** -/
theorem toReturn_ofReturn (word : UInt64) : (ofReturn word).toReturn = word := by
  rw [ofReturn]
  by_cases h : -Errno.largest ≤ word
  · rw [if_pos h, toReturn, UInt64.neg_neg]
  · rw [if_neg h, toReturn]

theorem ofReturn_neg_iff (e : UInt64) : ofReturn (-e) = .failure ⟨e⟩ ↔ 1 ≤ e.toNat ∧ e.toNat ≤ 4095 := by
  constructor
  · intro h
    obtain ⟨hpos, hle, -⟩ := (ofReturn_eq_failure_iff_toNat _ _).mp h
    exact ⟨hpos, hle⟩
  · rintro ⟨hpos, hle⟩
    exact ofReturn_neg hpos hle

/-- **Splitting a return word loses nothing.** A word below `2 ^ 64 - 4095` is the
value of a call that succeeded, every other word a failure from 1 to 4095, whose
negation it is. The word is got back from either, so no two words come to the same;
and an outcome is got back from its word just if it is one of those. -/
theorem ofReturn_lossless :
    (∀ word : UInt64,
      (ofReturn word = .value word ↔ word.toNat < 2 ^ 64 - 4095) ∧
      ((∃ e, ofReturn word = .failure ⟨e⟩ ∧ 1 ≤ e.toNat ∧ e.toNat ≤ 4095 ∧ word.toNat = 2 ^ 64 - e.toNat) ↔
        2 ^ 64 - 4095 ≤ word.toNat) ∧
      (ofReturn word).toReturn = word) ∧
    (∀ v : UInt64, ofReturn (toReturn (.value v)) = .value v ↔ v.toNat < 2 ^ 64 - 4095) ∧
    (∀ e : UInt64, ofReturn (toReturn (.failure ⟨e⟩)) = .failure ⟨e⟩ ↔ 1 ≤ e.toNat ∧ e.toNat ≤ 4095) ∧
    ∀ word word' : UInt64, ofReturn word = ofReturn word' ↔ word = word' := by
  refine ⟨fun word => ⟨ofReturn_eq_value_iff_toNat word, ?failure, toReturn_ofReturn word⟩,
    ofReturn_eq_value_iff_toNat, ofReturn_neg_iff, ?distinct⟩
  case failure =>
    rw [← exists_failure_iff]
    constructor
    · rintro ⟨e, he, -⟩
      exact ⟨e, he⟩
    · rintro ⟨e, he⟩
      exact ⟨e, he, (ofReturn_eq_failure_iff_toNat word e).mp he⟩
  case distinct =>
    intro word word'
    refine ⟨fun h => ?_, fun h => congrArg ofReturn h⟩
    rw [← toReturn_ofReturn word, h, toReturn_ofReturn]

end Outcome
end SyscallGate
