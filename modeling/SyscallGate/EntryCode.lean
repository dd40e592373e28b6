/-
# The entry for system calls, as machine code

Code that cannot call a function makes its system calls here: the call is
staged in registers, and every register, the flags and the stack pointer must
reach SYSCALL or VMGEXIT as they were. The ring is read from the code selector
itself. Whatever the code needs for that it saves on the caller's stack and
restores before it leaves, so only words below the stack pointer are written.

The code is a list of instructions with their meaning; `EntryCode.exec` is one
of them, `EntryCode.run` a number of steps. Every jump goes forward, so no
more steps are taken than there are instructions, and `EntryCode.call` runs it
from the first one until it returns. What the instructions need from outside
the core (the selector, the MSRs, whoever serves the two that leave) is
`Surroundings`.

Key definitions: `EntryCode.Instruction`, `EntryCode.code`, `EntryCode.Core`,
`EntryCode.Surroundings`, `EntryCode.exec`, `EntryCode.run`,
`EntryCode.call`.
-/
import SyscallGate.Ghcb
import SyscallGate.Register
import SyscallGate.State

namespace SyscallGate
namespace EntryCode

/-- The instructions the code is made of. A jump's target is the number of an
instruction, counted from 0. -/
inductive Instruction where
  /-- Saves the flags on the stack. -/
  | pushFlags
  /-- Loads the flags from the stack. -/
  | popFlags
  /-- Saves a register on the stack. -/
  | push (r : Register)
  /-- Loads a register from the stack. -/
  | pop (r : Register)
  /-- The code selector into the low 16 bits of RAX. -/
  | readSelector
  /-- Sets the flags by the bits of RAX's low byte that are in `mask`. -/
  | testLow (mask : UInt8)
  /-- Goes on at `target` unless the zero flag is set. -/
  | jumpNotZero (target : Nat)
  /-- A constant into the low half of a register, zeros above. -/
  | load (r : Register) (value : UInt32)
  /-- Zero into a register, by exclusive or with itself. -/
  | clear (r : Register)
  /-- Writes EDX:EAX to the MSR that ECX names. -/
  | writeMsr
  | vmgexit
  | syscall
  /-- Goes on at `target`. -/
  | jump (target : Nat)
  /-- Goes back to the address on the stack. -/
  | ret
  deriving DecidableEq, Repr

namespace Instruction

/-- Whether a register takes one more byte to name. -/
def extended : Register → Bool
  | .r8 | .r9 | .r10 | .r11 => true
  | _ => false

/-- The number of bytes an instruction takes. -/
def size : Instruction → Nat
  | pushFlags | popFlags | ret => 1
  | push r | pop r => if extended r then 2 else 1
  | readSelector => 3
  | testLow _ | jumpNotZero _ | jump _ | writeMsr | syscall => 2
  | load r _ => if extended r then 6 else 5
  | clear r => if extended r then 3 else 2
  | vmgexit => 4

end Instruction

/-- The number of the first instruction of the native path. -/
def native : Nat := 17

/-- The number of the instruction that ends both paths. -/
def exit : Nat := 20

/-- The code. -/
def code : List Instruction :=
  [.pushFlags,
   .push .rax,
   .readSelector,
   .testLow 3,
   .jumpNotZero native,
   -- the most privileged ring: a request, then VMGEXIT
   .push .rcx,
   .push .rdx,
   .load .rcx Ghcb.msr,
   .load .rax Ghcb.runCode.toUInt32,
   .clear .rdx,
   .writeMsr,
   .pop .rdx,
   .pop .rcx,
   .pop .rax,
   .popFlags,
   .vmgexit,
   .jump exit,
   -- the other rings: SYSCALL
   .pop .rax,
   .popFlags,
   .syscall,
   .ret]

/-- The number of bytes the code takes. -/
def size : Nat := (code.map Instruction.size).foldl (· + ·) 0

/-- The address behind the last instruction, if the first one is at `entry`. -/
def finish (entry : UInt64) : UInt64 := entry + UInt64.ofNat size

/-- The address that is given out to whoever installs the code as the guest's
entry for system calls. -/
def givenAddress (entry : UInt64) : UInt64 := entry

/-- The part of the processor the code works on: registers, and the words of
the stack by their address. -/
structure Core where
  regs : Registers
  stackPointer : UInt64
  stack : UInt64 → UInt64

namespace Core

/-- A word pushed on the stack. -/
def push (core : Core) (word : UInt64) : Core where
  regs := core.regs
  stackPointer := core.stackPointer - 8
  stack := assign core.stack (core.stackPointer - 8) word

/-- The word on top of the stack. -/
def top (core : Core) : UInt64 := core.stack core.stackPointer

/-- The stack without the word on top; the word itself stays in memory. -/
def drop (core : Core) : Core := { core with stackPointer := core.stackPointer + 8 }

/-- A register written. -/
def set (core : Core) (r : Register) (word : UInt64) : Core :=
  { core with regs := core.regs.set r word }

/-- The low half of a register. -/
def low (core : Core) (r : Register) : UInt32 := lowerHalf (core.regs.get r)

end Core

/-- Where the next instruction is: at a number in the code, or at an address
outside it. -/
inductive Place where
  | inside (number : Nat)
  | outside (address : UInt64)
  deriving DecidableEq, Repr

/-- What the code finds around it. -/
structure Surroundings (m : Type → Type) where
  /-- Reads the code selector. -/
  selector : m UInt16
  /-- Writes an MSR. -/
  writeMsr : UInt32 → UInt64 → m Unit
  /-- SYSCALL: the core it leaves, to the core it comes back to. -/
  syscall : Core → m Core
  /-- VMGEXIT, likewise. -/
  vmgexit : Core → m Core

variable {m : Type → Type} [Monad m] (around : Surroundings m)

/-- Carries out the instruction with that number. -/
def exec (number : Nat) (core : Core) : Instruction → m (Core × Place)
  | .pushFlags => return (core.push core.regs.rflags, .inside (number + 1))
  | .popFlags =>
    return (core.drop.set .rflags (Flags.load core.regs.rflags core.top), .inside (number + 1))
  | .push r => return (core.push (core.regs.get r), .inside (number + 1))
  | .pop r => return (core.drop.set r core.top, .inside (number + 1))
  | .readSelector => do
    let selector ← around.selector
    let rax := (core.regs.rax &&& ~~~0xffff) ||| selector.toUInt64
    return (core.set .rax rax, .inside (number + 1))
  | .testLow mask =>
    let result := core.regs.rax.toUInt8 &&& mask
    let flags := Flags.ofResult core.regs.rflags result (result == 0) (0x80 ≤ result)
    return (core.set .rflags flags, .inside (number + 1))
  | .jumpNotZero target =>
    return (core, .inside (if core.regs.rflags &&& Flags.zero = 0 then target else number + 1))
  | .load r value => return (core.set r value.toUInt64, .inside (number + 1))
  | .clear r =>
    let flags := Flags.ofResult core.regs.rflags 0 true false
    return ((core.set r 0).set .rflags flags, .inside (number + 1))
  | .writeMsr => do
    around.writeMsr (core.low .rcx) (joinHalves (core.low .rdx).toUInt64 (core.low .rax).toUInt64)
    return (core, .inside (number + 1))
  | .vmgexit => do
    let core ← around.vmgexit core
    return (core, .inside (number + 1))
  | .syscall => do
    let core ← around.syscall core
    return (core, .inside (number + 1))
  | .jump target => return (core, .inside target)
  | .ret => return (core.drop, .outside core.top)

/-- Takes at most that many steps; outside the code it takes none. -/
def run : Nat → Core → Place → m (Core × Place)
  | steps + 1, core, .inside number => do
    match code[number]? with
    | some instruction =>
      let (core, place) ← exec around number core instruction
      run steps core place
    | none => return (core, .inside number)
  | _, core, place => return (core, place)

/-- Runs the code from its first instruction. -/
def call (core : Core) : m (Core × Place) := run around code.length core (.inside 0)

end EntryCode
end SyscallGate
