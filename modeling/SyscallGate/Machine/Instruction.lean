/-
# A machine and its instructions

The machine is what the code's privileged instructions work on: the code
selector, the MSRs, the I/O ports, and a script that stands for the kernel and
for the more privileged level. An instruction that leaves takes the next
handler of the script. HLT and PAUSE come back a limited number of times in
each step; the last of them stops the step.

Key definitions: `Machine`, `Machine.Exec`, `Machine.readSelector`,
`Machine.readMsr`, `Machine.writeMsr`, `Machine.ports`, `Machine.halt`,
`Machine.pause`, `Machine.leaveFor`.
-/
import SyscallGate.Machine.Event
import SyscallGate.Serial
import SyscallGate.State
import SyscallGate.TicketLock

namespace SyscallGate

/-- The state of a machine. -/
structure Machine where
  selector : UInt16
  msrs : UInt32 → UInt64
  /-- The bytes that reads of ports still find. -/
  input : List UInt8
  /-- The byte last written to each port. -/
  written : UInt16 → UInt8
  /-- The serial port that messages go to. -/
  console : TicketLock SerialPort
  /-- The handlers of the instructions that leave, in order. -/
  script : List (List Machine.Action)
  /-- The HLTs after which the step stops. -/
  haltsLeft : Nat
  /-- The PAUSEs after which the step stops. -/
  pausesLeft : Nat
  /-- What happened, newest first. -/
  history : List Machine.Event

namespace Machine

/-- Code that runs on a machine and may be stopped. -/
abbrev Exec := ExceptT Stop (StateM Machine)

/-- Whoever serves an instruction that leaves: the registers it is shown, to
those it leaves behind. -/
abbrev Server := Registers → StateM Machine Registers

/-- Writes an event down. -/
def record (event : Event) : StateM Machine Unit :=
  modify fun m => { m with history := event :: m.history }

/-- Code that may fail, as code that may be stopped. -/
def orStop {α : Type} (code : ExceptT Fault (StateM Machine) α) : Exec α :=
  ExceptT.mk do
    match ← code.run with
    | .ok value => return .ok value
    | .error fault => return .error (.fault fault)

/-! ### Selector and MSRs -/

/-- Reads the code selector. -/
def readSelector : StateM Machine UInt16 := do
  let selector := (← get).selector
  record (.readSelector selector)
  return selector

/-- Changes the code selector from outside. -/
def setSelector (selector : UInt16) : StateM Machine Unit := do
  record (.setSelector selector)
  modify fun m => { m with selector }

/-- Changes an MSR from outside. -/
def setMsr (msr : UInt32) (value : UInt64) : StateM Machine Unit := do
  record (.setMsr msr value)
  modify fun m => { m with msrs := assign m.msrs msr value }

/-- RDMSR: the halves of the MSR in ECX, for EDX and EAX. -/
def rdmsr (ecx : UInt32) : StateM Machine (UInt32 × UInt32) := do
  let value := (← get).msrs ecx
  record (.readMsr ecx value)
  return (upperHalf value, lowerHalf value)

/-- WRMSR: EDX and EAX are the halves for the MSR in ECX. -/
def wrmsr (ecx edx eax : UInt32) : StateM Machine Unit := do
  let value := joinHalves edx.toUInt64 eax.toUInt64
  record (.writeMsr ecx value)
  modify fun m => { m with msrs := assign m.msrs ecx value }

/-- The value of an MSR. -/
def readMsr (msr : UInt32) : StateM Machine UInt64 := do
  let (edx, eax) ← rdmsr msr
  return joinHalves edx.toUInt64 eax.toUInt64

/-- Writes a value to an MSR. -/
def writeMsr (msr : UInt32) (value : UInt64) : StateM Machine Unit :=
  wrmsr msr (upperHalf value) (lowerHalf value)

/-! ### Ports -/

/-- IN: the next byte there is, or else the byte last written to that port. -/
def portIn (port : UInt16) : StateM Machine UInt8 := do
  let byte ← modifyGet fun m : Machine =>
    match m.input with
    | [] => (m.written port, m)
    | byte :: input => (byte, { m with input })
  record (.input port byte)
  return byte

/-- OUT. -/
def portOut (port : UInt16) (byte : UInt8) : StateM Machine Unit := do
  record (.output port byte)
  modify fun m => { m with written := assign m.written port byte }

/-- The machine's ports, for a serial port. -/
def ports : SerialPort.Ports (StateM Machine) where
  input := portIn
  output := portOut

/-! ### HLT and PAUSE -/

/-- HLT: the last one that the step may take stops it. -/
def halt : Exec Unit := do
  record .halt
  match (← get).haltsLeft with
  | 0 | 1 => throw .halted
  | left + 2 => modify fun m => { m with haltsLeft := left + 1 }

/-- PAUSE, written down as `event`: the last one that the step may take stops it. -/
def pauseAs (event : Event) : Exec Unit := do
  record event
  match (← get).pausesLeft with
  | 0 | 1 => throw .halted
  | left + 2 => modify fun m => { m with pausesLeft := left + 1 }

/-- PAUSE. -/
def pause : Exec Unit := pauseAs .pause

/-- Halts that many times, unless it is stopped before. -/
def haltTimes {α : Type} : Nat → Exec α
  | 0 => throw .halted
  | count + 1 => do
    halt
    haltTimes count

/-- Halts again and again until the step is stopped. -/
def haltForever {α : Type} : Exec α := do
  haltTimes ((← get).haltsLeft + 1)

/-! ### Leaving -/

/-- The address that SYSCALL leaves in RCX. -/
def returnAddress : UInt64 := 0x401000

/-- The registers as the instruction hands them over: SYSCALL puts the return
address and the flags into two of them. -/
def Exit.handOver (regs : Registers) : Exit → Registers
  | syscall => { regs with rcx := returnAddress, r11 := regs.rflags }
  | vmgexit => regs

/-- Which registers the code that leaves shows, and which it takes back. -/
structure Window where
  shown : List Register
  taken : List Register

namespace Window

/-- The registers of which only those in the window are seen: the others are
zero, and the flags idle. -/
def look (window : Window) (regs : Registers) : Registers :=
  window.shown.foldl (fun seen r => seen.set r (regs.get r))
    { Registers.zero with rflags := Flags.idle }

/-- The registers of `before` with those that are taken back from `after`; of
the flags only the loadable ones. -/
def takeBack (window : Window) (before after : Registers) : Registers :=
  window.taken.foldl (fun regs r =>
    match r with
    | .rflags => { regs with rflags := Flags.load regs.rflags after.rflags }
    | r => regs.set r (after.get r)) before

/-- All registers, the flags included. -/
def whole : Window := ⟨Register.all, Register.all⟩

/-- Nothing. -/
def closed : Window := ⟨[], []⟩

/-- The registers of a call site. -/
def ofCall (call : Call) : Window := ⟨call.filled, [.rax]⟩

/-- The registers that routing hands to an instruction, and those it gets back. -/
def ofRoute : Exit → Window
  | .syscall =>
    ⟨.rax :: Register.arguments, .rcx :: .r11 :: .rax :: Register.arguments⟩
  | .vmgexit =>
    ⟨.rcx :: .r11 :: .rax :: Register.arguments, .rcx :: .r11 :: .rax :: Register.arguments⟩

end Window

/-- Leaves by an instruction, with what the window shows of `regs`, and comes
back with what it takes. -/
def leaveFor (server : Server) (kind : Exit) (purpose : Purpose) (window : Window)
    (regs : Registers) : StateM Machine Registers := do
  record (.exit kind purpose (window.shown.map fun r => (r, regs.get r)))
  let after ← server (kind.handOver (window.look regs))
  return window.takeBack regs after

/-- VMGEXIT for a request in the MSR, no register in sight. -/
def vmgexit (server : Server) (purpose : Purpose) : StateM Machine Unit := do
  let _ ← leaveFor server .vmgexit purpose Window.closed Registers.zero

end Machine
end SyscallGate
