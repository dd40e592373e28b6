/-
# Texts and numbers are read back

The bytes of a text stand for no other text (`textBytes_injective`), and a number
that was written in hexadecimal is read back as that number (`Numeral.read?_hex`).
So what a guest says can be told from all else that it might have said, and a
number in it from every other.

Key theorems: `textBytes_append`, `textBytes_injective`,
`Numeral.readDigits?_toDigits`, `Numeral.read?_hex`.
-/
import SyscallGate.Numeral
import SyscallGate.Serial

namespace SyscallGate

/-! ### Bytes of texts -/

/-- Going through bytes from a place on collects those that follow it. -/
theorem toList_loop (bytes : ByteArray) (i : Nat) (done : List UInt8) :
    ByteArray.toList.loop bytes i done = done.reverse ++ bytes.data.toList.drop i := by
  rw [ByteArray.toList.loop]
  by_cases hi : i < bytes.size
  · have hbyte : bytes.get! i = bytes.data.toList[i] := by simp [ByteArray.get!, hi]
    rw [if_pos hi, toList_loop bytes (i + 1), List.reverse_cons, List.append_assoc, hbyte,
      List.drop_eq_getElem_cons hi]
    rfl
  · have hnone : bytes.data.toList.drop i = [] := List.drop_eq_nil_of_le (Nat.le_of_not_lt hi)
    rw [if_neg hi, hnone, List.append_nil]
termination_by bytes.size - i

theorem textBytes_eq (text : String) : textBytes text = text.toByteArray.data.toList := by
  rw [textBytes, String.toUTF8, ByteArray.toList, toList_loop]
  rfl

theorem textBytes_append (text more : String) : textBytes (text ++ more) = textBytes text ++ textBytes more := by
  rw [textBytes_eq, textBytes_eq, textBytes_eq, String.toByteArray_append, ByteArray.toList_data_append]

/-- **Texts with the same bytes are the same.** -/
theorem textBytes_injective {text text' : String} (h : textBytes text = textBytes text') : text = text' := by
  rw [textBytes_eq, textBytes_eq, Array.toList_inj] at h
  exact String.toByteArray_inj.mp (ByteArray.ext h)

/-! ### Numbers -/

namespace Numeral

theorem digitValue?_digitChar : ∀ d < 16, digitValue? (Nat.digitChar d) = some d := by
  decide

theorem readDigits?_append (base : Nat) : ∀ (digits later : List Char) (high : Nat),
    readDigits? base high (digits ++ later) = (readDigits? base high digits).bind (readDigits? base · later)
  | [], _, _ => rfl
  | c :: digits, later, high => by
    rw [List.cons_append, readDigits?, readDigits?]
    cases digitValue? c with
    | none => rfl
    | some d =>
      by_cases hd : d < base
      · simp only [if_pos hd]
        exact readDigits?_append base digits later _
      · simp only [if_neg hd]
        rfl

theorem readDigits?_digitChar {base d : Nat} (hbase : base ≤ 16) (hd : d < base) (high : Nat) :
    readDigits? base high [Nat.digitChar d] = some (high * base + d) := by
  rw [readDigits?, digitValue?_digitChar d (Nat.lt_of_lt_of_le hd hbase)]
  exact if_pos hd

/-- The digits of a number are read as that number, by recursion on it. -/
theorem readDigits?_toDigits {base : Nat} (hbase : 1 < base) (hle : base ≤ 16) (n : Nat) :
    readDigits? base 0 (Nat.toDigits base n) = some n := by
  rw [Nat.toDigits_eq_if hbase]
  by_cases hn : n < base
  · rw [if_pos hn, readDigits?_digitChar hle hn, Nat.zero_mul, Nat.zero_add]
  · have hless : n / base < n := Nat.div_lt_self (by omega) hbase
    rw [if_neg hn, readDigits?_append, readDigits?_toDigits hbase hle (n / base), Option.bind_some,
      readDigits?_digitChar hle (Nat.mod_lt n (by omega)), Nat.div_add_mod']
termination_by n

/-- **A number in hexadecimal is read back.** -/
theorem read?_hex (n : Nat) : read? (hex n) = some (n : Int) := by
  have hdigits : readDigits? 16 0 (Nat.toDigits 16 n) = some n :=
    readDigits?_toDigits (by decide) (by decide) n
  have hread : readNat? ('0' :: 'x' :: Nat.toDigits 16 n) = some n := by
    revert hdigits
    rcases hchars : Nat.toDigits 16 n with _ | ⟨c, digits⟩
    · exact (Nat.toDigits_ne_nil hchars).elim
    · exact id
  rw [read?, hex, String.toList_ofList, readInt?, hread]
  · rfl
  · intro rest hsign
    cases hsign

end Numeral
end SyscallGate
