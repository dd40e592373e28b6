/-
# The beginning and the end of a guest

Before the first call the guest is checked: without SEV-SNP there is nobody to
redirect calls to, and the guest ends itself. With it, the guest says where the
code for its calls lies. To end, it asks for termination with a reason and halts
for good, whatever comes back from the request.

Key definitions: `Machine.terminate`, `Machine.notActiveText`,
`Machine.readyText`, `Machine.startUp`.
-/
import SyscallGate.EntryCode
import SyscallGate.Machine.Console
import SyscallGate.Numeral

namespace SyscallGate
namespace Machine

/-- Asks for the guest to be terminated, and halts. -/
def terminate {α : Type} (server : Server) (reasonSet reasonCode : UInt64) : Exec α := do
  writeMsr Ghcb.msr (Ghcb.terminateRequest reasonSet reasonCode)
  vmgexit server (.terminate reasonSet reasonCode)
  haltForever

/-- Terminates without a particular reason. -/
def terminateGeneral {α : Type} (server : Server) : Exec α :=
  terminate server Ghcb.reasonSet Ghcb.generalReason

/-- Terminates because SEV-SNP is not active. -/
def terminateNotSnp {α : Type} (server : Server) : Exec α :=
  terminate server Ghcb.reasonSet Ghcb.notSnpReason

/-- What is said when SEV-SNP is not active. -/
def notActiveText (status : UInt64) : String :=
  "ERR: SEV-SNP is not active, SEV_STATUS=" ++ Numeral.hex status.toNat ++ "\n"

/-- What is said when calls can be redirected: where the entry code begins, and
where it ends. -/
def readyText (entry finish : UInt64) : String :=
  "> VMPL syscall trampoline at " ++ Numeral.hex entry.toNat ++ "-" ++ Numeral.hex finish.toNat ++ "\n"

/-- Checks that calls can be redirected to the code at `entry`: sets the console
up, and comes back only if SEV-SNP is active. -/
def startUp (verbose : Bool) (entry : UInt64) (server : Server) : Exec Unit := do
  setUpConsole verbose
  let status ← readMsr Ghcb.statusMsr
  if status &&& Ghcb.snpActive = 0 then
    print verbose (notActiveText status)
    terminateNotSnp server
  print verbose (readyText entry (EntryCode.finish entry))

end Machine
end SyscallGate
