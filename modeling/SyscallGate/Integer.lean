/-
# Machine integers of 8 to 128 bits

A machine integer is a bit pattern and a reading of it, signed or not. The
reading decides three things: what a wider cast fills in (copies of the sign
bit or zeros), what a right shift brings in, and which number is meant. Single
bits and halves are taken through those casts and shifts, so a narrow negative
value has the lower halves of its sign extension.

Key definitions: `IntType`, `IntType.Value`, `IntType.toInt`, `IntType.cast`,
`IntType.bit`, `IntType.lower16`, `IntType.lower32`, `IntType.upper32`,
`lowerHalf`, `upperHalf`, `joinHalves`.
-/
import SyscallGate.Fault

namespace SyscallGate

/-- The integer types, by signedness and width. -/
inductive IntType where
  | u8 | i8 | u16 | i16 | u32 | i32 | u64 | i64 | u128 | i128
  deriving DecidableEq, Repr

namespace IntType

/-- All of them, in order of width. -/
def all : List IntType := [u8, i8, u16, i16, u32, i32, u64, i64, u128, i128]

/-- The type's name in input and output. -/
def name : IntType → String
  | u8 => "u8" | i8 => "i8" | u16 => "u16" | i16 => "i16" | u32 => "u32" | i32 => "i32"
  | u64 => "u64" | i64 => "i64" | u128 => "u128" | i128 => "i128"

/-- The type of that name. -/
def named? (name : String) : Option IntType := all.find? (·.name == name)

/-- The number of bits of a value. -/
@[reducible] def width : IntType → Nat
  | u8 | i8 => 8
  | u16 | i16 => 16
  | u32 | i32 => 32
  | u64 | i64 => 64
  | u128 | i128 => 128

/-- Whether the top bit is a sign. -/
def signed : IntType → Bool
  | i8 | i16 | i32 | i64 | i128 => true
  | u8 | u16 | u32 | u64 | u128 => false

/-- A value of the type: its bit pattern. -/
abbrev Value (t : IntType) : Type := BitVec t.width

variable (t : IntType)

/-- The value congruent to `n` modulo `2 ^ width`. -/
def ofInt (n : Int) : t.Value := BitVec.ofInt t.width n

/-- The number a value stands for. -/
def toInt (x : t.Value) : Int := if t.signed then x.toInt else x.toNat

/-- The value in `w` bits: cut off, or filled up with the sign of a signed type
and with zeros otherwise. -/
def cast (w : Nat) (x : t.Value) : BitVec w := if t.signed then x.signExtend w else x.setWidth w

/-- The value shifted right, a signed type's sign brought in from the left. -/
def shiftRight (x : t.Value) (n : Nat) : t.Value := if t.signed then x.sshiftRight n else x >>> n

/-- A one in place `n`; a fault if the type has no such place. -/
def bit (n : Nat) : Except Fault t.Value :=
  if n < t.width then .ok (1 <<< n) else .error .shiftOverflow

/-- The 16 least significant bits. -/
def lower16 (x : t.Value) : BitVec 16 := t.cast 16 x &&& 0xffff

/-- The 32 least significant bits. -/
def lower32 (x : t.Value) : BitVec 32 := t.cast 32 x &&& 0xffffffff

/-- Bits 63 to 32. -/
def upper32 (x : t.Value) : BitVec 32 := t.cast 32 (t.shiftRight x 32) &&& 0xffffffff

/-- The value as a 64-bit word, the way it is passed to a call. -/
def toWord (x : t.Value) : UInt64 := ⟨t.cast 64 x⟩

end IntType

/-- The parts of a value that have names; the upper one only where the type has
a bit 63. -/
structure Halves where
  lower16 : BitVec 16
  lower32 : BitVec 32
  upper32 : Option (BitVec 32)
  deriving DecidableEq, Repr

/-- The parts of a value. -/
def Halves.of (t : IntType) (x : t.Value) : Halves where
  lower16 := t.lower16 x
  lower32 := t.lower32 x
  upper32 := if 64 ≤ t.width then some (t.upper32 x) else none

/-- The lower half of a word. -/
def lowerHalf (w : UInt64) : UInt32 := ⟨IntType.u64.lower32 w.toBitVec⟩

/-- The upper half of a word. -/
def upperHalf (w : UInt64) : UInt32 := ⟨IntType.u64.upper32 w.toBitVec⟩

/-- The word with `upper` above bit 31 and `lower` below. -/
def joinHalves (upper lower : UInt64) : UInt64 := (upper <<< (32 : UInt64)) ||| lower

end SyscallGate
