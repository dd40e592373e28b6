/-
# The flags register

RFLAGS holds the outcome of the last arithmetic (carry, parity, adjust, zero,
sign, overflow), the direction of string instructions, and the state of the
processor. Code may load the first seven as it likes, `Flags.loadable`; the
rest keep their value.

Key definitions: `Flags.loadable`, `Flags.idle`, `Flags.load`, `Flags.put`,
`Flags.ofResult`.
-/

namespace SyscallGate
namespace Flags

/-- The carry flag. -/
def carry : UInt64 := 0x1

/-- The bit that is always set. -/
def fixed : UInt64 := 0x2

/-- The parity flag: an even number of ones in the low byte of a result. -/
def parity : UInt64 := 0x4

/-- The adjust flag: a carry out of the low four bits. -/
def adjust : UInt64 := 0x10

/-- The zero flag. -/
def zero : UInt64 := 0x40

/-- The sign flag. -/
def sign : UInt64 := 0x80

/-- The interrupt flag. -/
def interrupt : UInt64 := 0x200

/-- The direction flag. -/
def direction : UInt64 := 0x400

/-- The overflow flag. -/
def overflow : UInt64 := 0x800

/-- The flags that an arithmetic instruction leaves an outcome in. -/
def outcome : UInt64 := carry ||| parity ||| adjust ||| zero ||| sign ||| overflow

/-- The flags that code may load as it likes. -/
def loadable : UInt64 := outcome ||| direction

/-- RFLAGS with no loadable flag set. -/
def idle : UInt64 := fixed ||| interrupt

/-- The flags `old` after `new` is loaded into them. -/
def load (old new : UInt64) : UInt64 := (old &&& ~~~loadable) ||| (new &&& loadable)

/-- The flags with those of `mask` set or cleared. -/
def put (flags mask : UInt64) (on : Bool) : UInt64 :=
  if on then flags ||| mask else flags &&& ~~~mask

/-- The number of ones in the low `bits` places. -/
def ones (n : Nat) : Nat → Nat
  | 0 => 0
  | bits + 1 => ones n bits + (n.testBit bits).toNat

/-- The flags after a logical instruction whose result has the given low byte,
is zero or not, and has the given top bit: no carry, no overflow. -/
def ofResult (flags : UInt64) (lowByte : UInt8) (isZero negative : Bool) : UInt64 :=
  let cleared := flags &&& ~~~outcome
  put (put (put cleared parity (ones lowByte.toNat 8 % 2 == 0)) zero isZero) sign negative

end Flags
end SyscallGate
