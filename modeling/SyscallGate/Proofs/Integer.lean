/-
# Casts, shifts and bits are arithmetic

A value stands for a number, and a type with a sign reads another number from the
same bits than one without. That number is all that casts and shifts go by: a cast
to `w` bits leaves the remainder by `2 ^ w` (`IntType.toNat_cast`), a shift to the
right the quotient, rounded down (`IntType.toInt_shiftRight`). So the halves of a
value are parts of its number, whatever the width, and together they are the
remainder by `2 ^ 64` (`IntType.halves_emod`). A bit is the value of its place,
except that the top bit of a type with a sign counts negative.

RDMSR and WRMSR pass a word in two registers, half a word in each, and nothing is
lost on the way (`joinHalves_halves`).

Key theorems: `IntType.toNat_cast`, `IntType.toInt_shiftRight`,
`IntType.halves_emod`, `IntType.bit_of_lt`, `joinHalves_halves`,
`IntType.parts_as_arithmetic`.
-/
import Mathlib.Algebra.Ring.Int.Defs
import Mathlib.Algebra.Ring.Nat
import SyscallGate.Integer

namespace SyscallGate

namespace IntType

variable (t : IntType)

/-! ### Casts and shifts -/

theorem cast_eq_ofInt (w : Nat) (x : t.Value) : t.cast w x = BitVec.ofInt w (t.toInt x) := by
  rw [cast, toInt]
  by_cases hsigned : t.signed = true
  · rw [if_pos hsigned, if_pos hsigned, BitVec.signExtend]
  · rw [if_neg hsigned, if_neg hsigned, BitVec.ofInt_natCast, BitVec.ofNat_toNat]

/-- What a cast leaves of the number is its remainder. -/
theorem toNat_cast (w : Nat) (x : t.Value) : ((t.cast w x).toNat : Int) = t.toInt x % 2 ^ w := by
  have hpos : (0 : Int) < 2 ^ w := Int.pow_pos (by decide)
  have hpower : ((2 ^ w : Nat) : Int) = 2 ^ w := Int.natCast_pow 2 w
  rw [cast_eq_ofInt, BitVec.toNat_ofInt, hpower, Int.toNat_of_nonneg (Int.emod_nonneg _ (Int.ne_of_gt hpos))]

theorem toInt_shiftRight (x : t.Value) (n : Nat) : t.toInt (t.shiftRight x n) = t.toInt x / 2 ^ n := by
  have hpower : ((2 ^ n : Nat) : Int) = 2 ^ n := Int.natCast_pow 2 n
  rw [toInt, toInt, shiftRight]
  by_cases hsigned : t.signed = true
  · rw [if_pos hsigned, if_pos hsigned, if_pos hsigned, BitVec.toInt_sshiftRight, Int.shiftRight_eq_div_pow, hpower]
  · rw [if_neg hsigned, if_neg hsigned, if_neg hsigned, BitVec.toNat_ushiftRight, Nat.shiftRight_eq_div_pow,
      Int.natCast_ediv, hpower]

/-- The bits of a value are the remainder of its number by all that fit. -/
theorem toInt_emod (x : t.Value) : t.toInt x % 2 ^ t.width = x.toNat := by
  have hself : t.cast t.width x = x := by
    rw [cast, BitVec.signExtend_eq, BitVec.setWidth_eq, ite_self]
  rw [← toNat_cast, hself]

theorem toInt_neg_iff (x : t.Value) : t.toInt x < 0 ↔ t.signed = true ∧ 2 ^ t.width ≤ 2 * x.toNat := by
  rw [toInt]
  by_cases hsigned : t.signed = true
  · rw [if_pos hsigned, BitVec.toInt_neg_iff]
    exact (and_iff_right hsigned).symm
  · rw [if_neg hsigned]
    exact ⟨fun h => absurd h (by omega), fun h => absurd h.1 hsigned⟩

/-! ### Halves -/

section Halves

variable (x : t.Value)

theorem toNat_lower16 : ((t.lower16 x).toNat : Int) = t.toInt x % 2 ^ 16 := by
  rw [lower16, show (0xffff : BitVec 16) = BitVec.allOnes 16 from rfl, BitVec.and_allOnes, toNat_cast]

theorem toNat_lower32 : ((t.lower32 x).toNat : Int) = t.toInt x % 2 ^ 32 := by
  rw [lower32, show (0xffffffff : BitVec 32) = BitVec.allOnes 32 from rfl, BitVec.and_allOnes, toNat_cast]

theorem toNat_upper32 : ((t.upper32 x).toNat : Int) = t.toInt x / 2 ^ 32 % 2 ^ 32 := by
  rw [upper32, show (0xffffffff : BitVec 32) = BitVec.allOnes 32 from rfl, BitVec.and_allOnes, toNat_cast,
    toInt_shiftRight]

theorem halves_emod : ((t.upper32 x).toNat : Int) * 2 ^ 32 + (t.lower32 x).toNat = t.toInt x % 2 ^ 64 := by
  rw [toNat_upper32, toNat_lower32]
  omega

end Halves

/-! ### Bits -/

theorem bit_eq_error_iff (n : Nat) : t.bit n = .error .shiftOverflow ↔ t.width ≤ n := by
  rw [bit]
  by_cases h : n < t.width
  · rw [if_pos h]
    exact ⟨nofun, fun hle => absurd h (Nat.not_lt.mpr hle)⟩
  · rw [if_neg h]
    exact ⟨fun _ => Nat.not_lt.mp h, fun _ => rfl⟩

theorem bit_of_lt {n : Nat} (h : n < t.width) : ∃ value, t.bit n = .ok value ∧ value.toNat = 2 ^ n := by
  refine ⟨BitVec.ofNat t.width (1 <<< n), if_pos h, ?_⟩
  rw [BitVec.toNat_ofNat, Nat.one_shiftLeft]
  exact Nat.mod_eq_of_lt (Nat.pow_lt_pow_right (by decide) h)

theorem toInt_neg_iff_of_toNat {value : t.Value} {n : Nat} (h : value.toNat = 2 ^ n) :
    t.toInt value < 0 ↔ t.signed = true ∧ t.width ≤ n + 1 := by
  rw [toInt_neg_iff, h, ← Nat.pow_succ', Nat.pow_le_pow_iff_right (by decide)]

end IntType

/-! ### The halves of a word -/

theorem toNat_lowerHalf (w : UInt64) : (lowerHalf w).toNat = w.toNat % 2 ^ 32 := by
  have h : ((lowerHalf w).toNat : Int) = (w.toNat : Int) % 2 ^ 32 := IntType.u64.toNat_lower32 w.toBitVec
  omega

theorem toNat_upperHalf (w : UInt64) : (upperHalf w).toNat = w.toNat / 2 ^ 32 := by
  have h : ((upperHalf w).toNat : Int) = (w.toNat : Int) / 2 ^ 32 % 2 ^ 32 := IntType.u64.toNat_upper32 w.toBitVec
  have hlt : w.toNat < 2 ^ 64 := w.toNat_lt
  omega

/-- **A word is put together from its halves.** -/
theorem joinHalves_halves (w : UInt64) :
    joinHalves (upperHalf w).toUInt64 (lowerHalf w).toUInt64 = w := by
  have hlower : (lowerHalf w).toNat < 2 ^ 32 := (lowerHalf w).toNat_lt
  have hupper : (upperHalf w).toNat < 2 ^ 32 := (upperHalf w).toNat_lt
  have hvalue : (joinHalves (upperHalf w).toUInt64 (lowerHalf w).toUInt64).toNat =
      (upperHalf w).toNat <<< 32 % 2 ^ 64 ||| (lowerHalf w).toNat := by
    simp [joinHalves]
  have hshift : (upperHalf w).toNat <<< 32 % 2 ^ 64 = (upperHalf w).toNat <<< 32 := by
    rw [Nat.shiftLeft_eq]
    exact Nat.mod_eq_of_lt (by omega)
  rw [hshift, ← Nat.shiftLeft_add_eq_or_of_lt hlower, Nat.shiftLeft_eq, toNat_upperHalf,
    toNat_lowerHalf] at hvalue
  apply UInt64.toNat_inj.mp
  omega

/-- **The parts of a value are parts of its number**, in every type. Its lower halves
are remainders of the number, so a narrow negative value has those of its sign
extension; the upper half is there from 64 bits on, and is the remainder of a
quotient rounded down, so that the halves together are the number modulo `2 ^ 64`,
and every word is put together from its own. A bit is a fault from the width on;
below it is a value of its place modulo `2 ^ width`, and negative in the place of the
sign and nowhere else. -/
theorem IntType.parts_as_arithmetic :
    (∀ (t : IntType) (x : t.Value),
      ((Halves.of t x).lower16.toNat : Int) = t.toInt x % 2 ^ 16 ∧
      ((Halves.of t x).lower32.toNat : Int) = t.toInt x % 2 ^ 32 ∧
      (64 ≤ t.width ↔ ∃ upper, (Halves.of t x).upper32 = some upper ∧
        (upper.toNat : Int) = t.toInt x / 2 ^ 32 % 2 ^ 32 ∧
        (upper.toNat : Int) * 2 ^ 32 + (Halves.of t x).lower32.toNat = t.toInt x % 2 ^ 64)) ∧
    (∀ word : UInt64, joinHalves (upperHalf word).toUInt64 (lowerHalf word).toUInt64 = word) ∧
    ∀ (t : IntType) (n : Nat),
      (t.bit n = .error .shiftOverflow ↔ t.width ≤ n) ∧
      (n < t.width ↔ ∃ value, t.bit n = .ok value ∧ t.toInt value % 2 ^ t.width = 2 ^ n % 2 ^ t.width ∧
        (t.toInt value < 0 ↔ t.signed = true ∧ n + 1 = t.width)) := by
  refine ⟨fun t x => ⟨t.toNat_lower16 x, t.toNat_lower32 x, ?upper⟩, joinHalves_halves,
    fun t n => ⟨t.bit_eq_error_iff n, ?bit⟩⟩
  case upper =>
    by_cases hwide : 64 ≤ t.width
    · exact iff_of_true hwide ⟨t.upper32 x, if_pos hwide, t.toNat_upper32 x, t.halves_emod x⟩
    · have hnone : (Halves.of t x).upper32 = none := if_neg hwide
      refine iff_of_false hwide ?_
      rintro ⟨upper, hupper, -⟩
      rw [hnone] at hupper
      cases hupper
  case bit =>
    constructor
    · intro hplace
      obtain ⟨value, hvalue, hbits⟩ := t.bit_of_lt hplace
      have hlt : (2 : Int) ^ n < 2 ^ t.width := Int.pow_lt_pow_of_lt (by decide) hplace
      refine ⟨value, hvalue, ?_, ?_⟩
      · rw [t.toInt_emod, hbits, Int.natCast_pow]
        exact (Int.emod_eq_of_lt (Int.le_of_lt (Int.pow_pos (by decide))) hlt).symm
      · have htop : t.width ≤ n + 1 ↔ n + 1 = t.width := by omega
        rw [t.toInt_neg_iff_of_toNat hbits, htop]
    · rintro ⟨value, hvalue, -⟩
      refine Nat.lt_of_not_le fun hle => ?_
      rw [(t.bit_eq_error_iff n).mpr hle] at hvalue
      cases hvalue

/-- The lowest value of eight bits, sign-extended. -/
example : Halves.of .i8 (IntType.i8.ofInt (-128)) = ⟨0xff80, 0xffffff80, none⟩ := by decide

end SyscallGate
