/-
# System calls on a machine

Five ways lead into a system call: the entry code itself, routing on the
processor, routing for a caller that passes the registers in memory, and call
sites with words or with typed operands. They differ in what they show to
whoever serves the call and in what they take back.

Key definitions: `Machine.hardware`, `Machine.routeStaged`,
`Machine.routeImage`, `Machine.callEntry`, `Machine.callLoaded`,
`Machine.callSite`.
-/
import SyscallGate.EntryCode
import SyscallGate.Machine.Console
import SyscallGate.Outcome
import SyscallGate.Register.Image

namespace SyscallGate
namespace Machine

/-- The class of the code that runs, by the ring its selector names. -/
def callerClass : StateM Machine CallerClass := do
  let selector ← readSelector
  return .ofRing (.ofSelector selector)

section Call

variable (verbose : Bool) (server : Server)

/-- The machine's own processor. -/
def hardware : Processor (StateM Machine) where
  callerClass := callerClass
  writeMsr := writeMsr
  syscall regs := leaveFor server .syscall .call (Window.ofRoute .syscall) regs
  vmgexit regs := leaveFor server .vmgexit .call (Window.ofRoute .vmgexit) regs

/-- Routes a staged call. -/
def routeStaged (regs : Registers) : Exec (Route × Registers) :=
  orStop (route (hardware server) regs)

/-- Routes the call that lies in memory: its signed return value, and the
memory after it. Without memory the call is refused, and the console says so. -/
def routeImage : Option Image → Exec (Int64 × Option Image)
  | none => do
    print verbose "ERR: BUG: vmpl_dispatch called without registers\n"
    return (-Errno.invalidArgument.number.toInt64, none)
  | some image => do
    let (_, regs) ← routeStaged server image.decode
    return (regs.returned.toInt64, some (Image.encode regs))

/-- What the entry code finds around it, for a caller with that window. -/
def surroundings (window : Window) : EntryCode.Surroundings (StateM Machine) where
  selector := readSelector
  writeMsr := fun msr value => wrmsr msr (upperHalf value) (lowerHalf value)
  syscall := fun core => do
    let regs ← leaveFor server .syscall .call window core.regs
    return { core with regs }
  vmgexit := fun core => do
    let regs ← leaveFor server .vmgexit .call window core.regs
    return { core with regs }

/-- The core when the entry code is called with these registers. -/
def enteredCore (regs : Registers) : EntryCode.Core where
  regs := regs
  stackPointer := 0x7fff8
  stack := fun _ => returnAddress

/-- Calls the entry code. -/
def callEntry (window : Window) (regs : Registers) : StateM Machine Registers := do
  let (core, _) ← EntryCode.call (surroundings server window) (enteredCore regs)
  return core.regs

/-- Calls the entry code with all registers loaded, of the flags those that
code may load. -/
def callLoaded (regs : Registers) : StateM Machine Registers :=
  callEntry server Window.whole { regs with rflags := Flags.load Flags.idle regs.rflags }

/-- Makes the call of a call site. -/
def callSite (call : Call) : StateM Machine UInt64 := do
  let regs ← callEntry server (Window.ofCall call) call.staged
  return regs.returned

end Call
end Machine
end SyscallGate
