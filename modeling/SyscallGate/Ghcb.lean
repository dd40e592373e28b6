/-
# Requests in the GHCB MSR

A guest asks its hypervisor for something by writing a request to the GHCB MSR
and leaving through VMGEXIT. The low twelve bits say what is asked for; a
request to run another privilege level has the level in its upper half, a
request to terminate has a reason set and a reason code above the low bits.
The fields of a termination are put together unmasked, so a set of 16 or more
spills into the code.

Key definitions: `Vmpl`, `Ghcb.runRequest`, `Ghcb.terminateRequest`,
`Ghcb.info`.
-/
import SyscallGate.Integer

namespace SyscallGate

/-- The privilege levels of a virtual machine, and the bound above them. -/
inductive Vmpl where
  | vmpl0 | vmpl1 | vmpl2 | vmpl3 | max
  deriving DecidableEq, Repr

namespace Vmpl

/-- All of them, in order. -/
def all : List Vmpl := [vmpl0, vmpl1, vmpl2, vmpl3, max]

/-- The number of a level. -/
def number : Vmpl → UInt64
  | vmpl0 => 0 | vmpl1 => 1 | vmpl2 => 2 | vmpl3 => 3 | max => 4

/-- The name of a level. -/
def name : Vmpl → String
  | vmpl0 => "Vmpl0" | vmpl1 => "Vmpl1" | vmpl2 => "Vmpl2" | vmpl3 => "Vmpl3" | max => "VmplMax"

/-- The level of that number. -/
def numbered? (n : UInt64) : Option Vmpl := all.find? (·.number == n)

end Vmpl

namespace Ghcb

/-- The MSR that requests are written to. -/
def msr : UInt32 := 0xc0010130

/-- The MSR that says which protections of the guest are active. -/
def statusMsr : UInt32 := 0xc0010131

/-- The bit of the status that says SEV-SNP is active. -/
def snpActive : UInt64 := 0x4

/-- The bits that say what is asked for. -/
def infoMask : UInt64 := 0xfff

/-- Asks to run a privilege level. -/
def runCode : UInt64 := 0x16

/-- Asks to terminate the guest. -/
def terminateCode : UInt64 := 0x100

/-- What a value asks for. -/
def info (value : UInt64) : UInt64 := value &&& infoMask

/-- The request to run `level`. -/
def runRequest (level : Vmpl) : UInt64 := runCode ||| (level.number <<< 32)

/-- The request to terminate, with a reason. -/
def terminateRequest (reasonSet reasonCode : UInt64) : UInt64 :=
  terminateCode ||| (reasonSet <<< 12) ||| (reasonCode <<< 16)

/-- The reason set of this code's terminations. -/
def reasonSet : UInt64 := 15

/-- The reason for which none is given. -/
def generalReason : UInt64 := 0

/-- The reason that SEV-SNP is not active. -/
def notSnpReason : UInt64 := 13

end Ghcb
end SyscallGate
