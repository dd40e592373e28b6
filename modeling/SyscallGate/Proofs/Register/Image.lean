/-
# Nothing is lost in memory

The bytes of a register set are ten pieces of eight bytes each, and a piece is
the word it was made of, little end first. So a set that is read back from
where it was written is the same set. And eighty bytes are pieces of a set,
whatever they are: written back after they were read they are the same bytes.

Key theorems: `ofLittleEndian_littleEndian`, `littleEndian_ofLittleEndian`,
`Image.word_encode`, `Image.getElem?_encode`, `Image.decode_encode`,
`Image.encode_decode`.
-/
import Mathlib.Algebra.Group.Nat.Defs
import SyscallGate.Register.Image

namespace SyscallGate

/-- The bytes that are left of a number are those of its remainder. -/
theorem ofLittleEndian_littleEndian : ∀ count n : Nat,
    ofLittleEndian (littleEndian count n) = n % 256 ^ count
  | 0, n => by rw [Nat.pow_zero, Nat.mod_one]; rfl
  | count + 1, n => by
    have hbyte : (UInt8.ofNat n).toNat = n % 256 := UInt8.toNat_ofNat'
    rw [littleEndian, ofLittleEndian, ofLittleEndian_littleEndian count, hbyte, Nat.pow_succ',
      Nat.mod_mul]

theorem ofLittleEndian_word (word : UInt64) : ofLittleEndian (littleEndian 8 word.toNat) = word.toNat := by
  rw [ofLittleEndian_littleEndian]
  exact Nat.mod_eq_of_lt word.toNat_lt

theorem getElem?_littleEndian : ∀ {count i : Nat}, i < count → ∀ n : Nat,
    (littleEndian count n)[i]? = some (UInt8.ofNat (n / 256 ^ i))
  | _ + 1, 0, _, n => by rw [littleEndian, List.getElem?_cons_zero, Nat.pow_zero, Nat.div_one]
  | _ + 1, _ + 1, h, n => by
    rw [littleEndian, List.getElem?_cons_succ, getElem?_littleEndian (Nat.lt_of_succ_lt_succ h), Nat.pow_succ',
      Nat.div_div_eq_div_mul]

theorem littleEndian_ofLittleEndian : ∀ bytes : List UInt8, littleEndian bytes.length (ofLittleEndian bytes) = bytes
  | [] => rfl
  | byte :: bytes => by
    have hlt : byte.toNat < 256 := byte.toNat_lt
    have hbyte : UInt8.ofNat (byte.toNat + 256 * ofLittleEndian bytes) = byte := by
      rw [← UInt8.toNat_inj, UInt8.toNat_ofNat']
      omega
    have hrest : (byte.toNat + 256 * ofLittleEndian bytes) / 256 = ofLittleEndian bytes := by omega
    rw [ofLittleEndian, List.length_cons, littleEndian, hbyte, hrest, littleEndian_ofLittleEndian]

theorem ofLittleEndian_lt (bytes : List UInt8) : ofLittleEndian bytes < 256 ^ bytes.length := by
  have hmod := ofLittleEndian_littleEndian bytes.length (ofLittleEndian bytes)
  rw [littleEndian_ofLittleEndian] at hmod
  rw [hmod]
  exact Nat.mod_lt _ (Nat.pow_pos (by decide))

/-- Pieces of one length, put one after the other, can be cut out again. -/
theorem take_drop_flatMap {α β : Type} {f : α → List β} {size : Nat} (hf : ∀ a, (f a).length = size) :
    ∀ {l : List α} {i : Nat} {a : α}, l[i]? = some a → ((l.flatMap f).drop (size * i)).take size = f a
  | b :: l, 0, a, h => by
    obtain rfl : b = a := Option.some.inj h
    rw [List.flatMap_cons, Nat.mul_zero, List.drop_zero, ← hf b, List.take_left]
  | b :: l, i + 1, a, h => by
    rw [List.flatMap_cons, Nat.mul_succ, Nat.add_comm, ← List.drop_drop, ← hf b, List.drop_left, hf b]
    exact take_drop_flatMap hf h

theorem flatMap_take_drop {α : Type} (size : Nat) : ∀ (count : Nat) {l : List α}, l.length = size * count →
    (List.range count).flatMap (fun i => (l.drop (size * i)).take size) = l
  | 0, l, h => (List.eq_nil_of_length_eq_zero h).symm
  | count + 1, l, h => by
    have hrest : (l.drop size).length = size * count := by
      rw [List.length_drop, h, Nat.mul_succ, Nat.add_sub_cancel]
    have hpiece (i : Nat) : l.drop (size * (i + 1)) = (l.drop size).drop (size * i) := by
      rw [List.drop_drop, Nat.mul_succ, Nat.add_comm]
    rw [List.range_succ_eq_map, List.flatMap_cons, List.flatMap_map]
    simp only [hpiece]
    rw [flatMap_take_drop size count hrest, Nat.mul_zero, List.drop_zero, List.take_append_drop]

theorem Register.all_index (r : Register) : Register.all[r.index]? = some r := by
  cases r <;> rfl

namespace Image

/-- Each word lies at its register's place, its bytes one after the other. -/
theorem piece_encode (regs : Registers) (r : Register) :
    ((encode regs).bytes.drop (8 * r.index)).take 8 = littleEndian 8 (regs.get r).toNat :=
  take_drop_flatMap (f := fun r => littleEndian 8 (regs.get r).toNat) (fun _ => length_littleEndian 8 _) r.all_index

theorem word_encode (regs : Registers) (r : Register) : (encode regs).word r = regs.get r := by
  rw [word, piece_encode, ofLittleEndian_word, UInt64.ofNat_toNat]

theorem getElem?_encode (regs : Registers) (r : Register) {i : Nat} (hi : i < 8) :
    (encode regs).bytes[8 * r.index + i]? = some (UInt8.ofNat ((regs.get r).toNat / 256 ^ i)) := by
  rw [← List.getElem?_drop, ← List.getElem?_take_of_lt hi, piece_encode, getElem?_littleEndian hi]

theorem get_decode (image : Image) (r : Register) : image.decode.get r = image.word r := by
  cases r <;> rfl

/-- **A register set comes back from memory as it was.** -/
theorem decode_encode (regs : Registers) : (encode regs).decode = regs := by
  apply Registers.ext_get
  intro r
  rw [get_decode, word_encode]

theorem littleEndian_word (image : Image) (r : Register) :
    littleEndian 8 (image.word r).toNat = (image.bytes.drop (8 * r.index)).take 8 := by
  have hindex : r.index < 10 := by cases r <;> decide
  have hlength : ((image.bytes.drop (8 * r.index)).take 8).length = 8 := by
    rw [List.length_take, List.length_drop, image.length_eq]
    omega
  have hlt := ofLittleEndian_lt ((image.bytes.drop (8 * r.index)).take 8)
  have hsame := littleEndian_ofLittleEndian ((image.bytes.drop (8 * r.index)).take 8)
  rw [hlength] at hlt hsame
  rw [word, UInt64.toNat_ofNat_of_lt' hlt, hsame]

/-- **Bytes that were read as a register set are written back as they were.** -/
theorem encode_decode (image : Image) : encode image.decode = image := by
  obtain ⟨bytes, hlength⟩ := image
  have hindex : Register.all.map Register.index = List.range 10 := rfl
  have hbytes : Register.all.flatMap (fun r => (bytes.drop (8 * r.index)).take 8) =
      (Register.all.map Register.index).flatMap fun i => (bytes.drop (8 * i)).take 8 := (List.flatMap_map ..).symm
  rw [encode, Image.mk.injEq]
  simp only [get_decode, littleEndian_word]
  rw [hbytes, hindex]
  exact flatMap_take_drop 8 10 hlength

end Image
end SyscallGate
