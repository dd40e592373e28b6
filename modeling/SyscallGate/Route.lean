/-
# Routing one system call

Code in a reduced ring makes its calls with SYSCALL. Code in the most
privileged ring has no kernel below it: its call goes to a more privileged
level of the virtual machine, by a request in the GHCB MSR and VMGEXIT. Either
way the registers must arrive as they were staged, although asking for the
privilege class changes the zero flag and writing the request takes three
registers. `route` puts them aside and restores them around that.

Who asks, writes and leaves is a `Processor`. It runs in any monad, so it may
keep records, serve calls by making others, or fail.

Key definitions: `Processor`, `Route`, `route`.
-/
import SyscallGate.Ghcb
import SyscallGate.Privilege
import SyscallGate.Register
import SyscallGate.SaveArea

namespace SyscallGate

/-- The way a call leaves the code that makes it. -/
inductive Route where
  /-- SYSCALL. -/
  | direct
  /-- A request in the GHCB MSR, then VMGEXIT. -/
  | redirect
  deriving DecidableEq, Repr

/-- The name of a way. -/
def Route.name : Route → String
  | direct => "Direct"
  | redirect => "Redirect"

/-- What routing a call asks of the processor. -/
structure Processor (m : Type → Type) where
  /-- The class of the code that calls. -/
  callerClass : m CallerClass
  /-- Writes an MSR. -/
  writeMsr : UInt32 → UInt64 → m Unit
  /-- SYSCALL: the registers it is given, to those it comes back with. -/
  syscall : Registers → m Registers
  /-- VMGEXIT, likewise. -/
  vmgexit : Registers → m Registers

variable {m : Type → Type} [Monad m]

/-- Routes the call staged in `regs`: the way it went and the registers it left. -/
def route (processor : Processor m) (regs : Registers) : ExceptT Fault m (Route × Registers) := do
  let area ← SaveArea.empty.push regs.rflags
  let area ← area.push regs.rax
  -- the answer is left in the zero flag
  let privilege ← processor.callerClass
  let regs := regs.putFlag Flags.zero (privilege == .mostPrivileged)
  match privilege with
  | .reduced =>
    let (rax, area) ← area.pop
    let (rflags, area) ← area.pop
    area.expectEmpty
    let regs ← processor.syscall { regs with rax, rflags }
    return (.direct, regs)
  | .mostPrivileged =>
    let area ← area.push regs.rcx
    let area ← area.push regs.rdx
    -- an MSR is written with its number in RCX and the halves in RDX and RAX
    let request := Ghcb.runRequest .vmpl0
    let regs := { regs with
      rcx := Ghcb.msr.toUInt64
      rax := (lowerHalf request).toUInt64
      rdx := (upperHalf request).toUInt64 }
    processor.writeMsr regs.rcx.toUInt32 (joinHalves regs.rdx regs.rax)
    let (rdx, area) ← area.pop
    let (rcx, area) ← area.pop
    let (rax, area) ← area.pop
    let (rflags, area) ← area.pop
    area.expectEmpty
    let regs ← processor.vmgexit { regs with rdx, rcx, rax, rflags }
    return (.redirect, regs)

end SyscallGate
