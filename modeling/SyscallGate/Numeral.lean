/-
# Numbers as text

A word is written in hexadecimal with the mark `0x`, in lowercase and without
leading zeros. Reading accepts that form, decimal digits, and a minus sign in
front of either. Bytes are written as two hexadecimal digits each, without a
mark.

Key definitions: `Numeral.hex`, `Numeral.read?`, `Numeral.bytesHex`,
`Numeral.readBytes?`.
-/

namespace SyscallGate
namespace Numeral

/-- The value of a digit, in bases up to 16; both cases are read. -/
def digitValue? (c : Char) : Option Nat :=
  if '0' ≤ c ∧ c ≤ '9' then some (c.toNat - '0'.toNat)
  else if 'a' ≤ c ∧ c ≤ 'f' then some (c.toNat - 'a'.toNat + 10)
  else if 'A' ≤ c ∧ c ≤ 'F' then some (c.toNat - 'A'.toNat + 10)
  else none

/-- The number that the digits write after what `high` holds. -/
def readDigits? (base : Nat) : Nat → List Char → Option Nat
  | high, [] => some high
  | high, c :: rest =>
    match digitValue? c with
    | some d => if d < base then readDigits? base (high * base + d) rest else none
    | none => none

/-- A number without a sign: at least one digit, hexadecimal after `0x`. -/
def readNat? : List Char → Option Nat
  | [] => none
  | ['0', 'x'] => none
  | '0' :: 'x' :: digits => readDigits? 16 0 digits
  | digits => readDigits? 10 0 digits

/-- A number, perhaps with a minus sign. -/
def readInt? : List Char → Option Int
  | '-' :: rest => (readNat? rest).map fun n => -(n : Int)
  | chars => (readNat? chars).map fun n => (n : Int)

/-- The number a text stands for. -/
def read? (text : String) : Option Int := readInt? text.toList

/-- A number in hexadecimal, with its mark. -/
def hex (n : Nat) : String := String.ofList ('0' :: 'x' :: Nat.toDigits 16 n)

/-- A byte as two digits. -/
def byteHex (b : UInt8) : List Char :=
  [Nat.digitChar (b.toNat / 16), Nat.digitChar (b.toNat % 16)]

/-- Bytes, two digits each. -/
def bytesHex (bytes : List UInt8) : String := String.ofList (bytes.flatMap byteHex)

/-- Reads pairs of digits as bytes. -/
def readPairs? : List Char → Option (List UInt8)
  | [] => some []
  | [_] => none
  | high :: low :: rest =>
    match readDigits? 16 0 [high, low], readPairs? rest with
    | some b, some bytes => some (UInt8.ofNat b :: bytes)
    | _, _ => none

/-- The bytes a text of digit pairs stands for. -/
def readBytes? (text : String) : Option (List UInt8) := readPairs? text.toList

end Numeral
end SyscallGate
