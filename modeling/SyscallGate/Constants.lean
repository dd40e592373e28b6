/-
# The numbers of the interfaces

The MSRs, bits, codes, error numbers and registers that callers of this code
and the hypervisor agree on, under the names they are known by.

Key definitions: `constants`.
-/
import SyscallGate.Flags
import SyscallGate.Ghcb
import SyscallGate.Outcome
import SyscallGate.Privilege
import SyscallGate.Register
import SyscallGate.SaveArea
import SyscallGate.Serial

namespace SyscallGate

/-- The numbers, by name. -/
def constants : List (String × UInt64) :=
  [("MSR_GHCB", Ghcb.msr.toUInt64),
   ("MSR_SEV_STATUS", Ghcb.statusMsr.toUInt64),
   ("SEV_STATUS_SNP_ENABLED", Ghcb.snpActive),
   ("GHCB_MSR_RUN_VMPL_REQ", Ghcb.runCode),
   ("GHCB_MSR_TERMINATE_REQ", Ghcb.terminateCode),
   ("GHCB_MSR_INFO_MASK", Ghcb.infoMask),
   ("VMPL_REASON_CODE_SET", Ghcb.reasonSet),
   ("VMPL_TERM_GENERAL", Ghcb.generalReason),
   ("VMPL_TERM_NOT_SNP", Ghcb.notSnpReason),
   ("SELECTOR_RPL_MASK", ringMask.toUInt64),
   ("RFLAGS_FIXED", Flags.fixed),
   ("RFLAGS_ZF", Flags.zero),
   ("RFLAGS_IF", Flags.interrupt),
   ("SYSCALL_MAX_ARGS", UInt64.ofNat Register.arguments.length),
   ("SYSCALL_MAX_ERRNO", Errno.largest),
   ("EPERM", Errno.notPermitted.number),
   ("EINVAL", Errno.invalidArgument.number),
   ("ENOSYS", Errno.noSuchCall.number),
   ("SCRATCH_SLOTS", UInt64.ofNat SaveArea.capacity),
   ("TTYS0", SerialPort.firstLine.toUInt64),
   ("DIV_BASE", SerialPort.fastestRate),
   ("DLAB_BIT", SerialPort.divisorAccess.toUInt64),
   ("THR", SerialPort.transmit.toUInt64),
   ("IER", SerialPort.interruptEnable.toUInt64),
   ("FCR", SerialPort.queueControl.toUInt64),
   ("LCR", SerialPort.lineControl.toUInt64),
   ("MCR", SerialPort.modemControl.toUInt64),
   ("DLL", SerialPort.divisorLow.toUInt64),
   ("DLM", SerialPort.divisorHigh.toUInt64)]

end SyscallGate
