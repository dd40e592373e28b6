/-
# What a machine is asked to do

A run of the machine is a list of steps. A step makes a system call by one of
its entries, or uses one instruction, or changes the machine. Handlers of a
call are lists of actions on the registers they are shown and on the machine,
and an action may run a step in the middle of the step that it serves.

Key definitions: `Call`, `Operand`, `TypedCall`, `Machine.Step`, `Machine.Action`,
`Machine.Result`, `Machine.Result.updateLast`.
-/
import SyscallGate.Route
import SyscallGate.Integer
import SyscallGate.Register.Action

namespace SyscallGate

/-- A call site: the number of the call and its arguments, at most as many as
there are registers for them. -/
structure Call where
  id : UInt64
  arguments : List UInt64
  length_le : arguments.length ≤ 6
  deriving DecidableEq

namespace Call

/-- A call given as its number followed by its arguments. -/
def ofWords? : List UInt64 → Option Call
  | [] => none
  | id :: arguments => if h : arguments.length ≤ 6 then some ⟨id, arguments, h⟩ else none

/-- The registers the call is made with. -/
def staged (call : Call) : Registers := Registers.stage call.id call.arguments

/-- The registers the call fills: RAX and one for each argument. -/
def filled (call : Call) : List Register :=
  .rax :: Register.arguments.take call.arguments.length

end Call

/-- An integer with a type of its own. -/
structure Operand where
  type : IntType
  value : type.Value

namespace Operand

/-- The operand of a type that is congruent to `n`. -/
def ofInt (type : IntType) (n : Int) : Operand := ⟨type, type.ofInt n⟩

/-- The number an operand stands for. -/
def toInt (operand : Operand) : Int := operand.type.toInt operand.value

/-- The operand as a word, cast by its own type. -/
def toWord (operand : Operand) : UInt64 := operand.type.toWord operand.value

end Operand

/-- A call site whose operands have integer types of their own: the number of the
call has one, and so has each argument. -/
structure TypedCall where
  id : Operand
  arguments : List Operand
  length_le : arguments.length ≤ 6

namespace TypedCall

/-- A call given as its number followed by its arguments. -/
def ofOperands? : List Operand → Option TypedCall
  | [] => none
  | id :: arguments => if h : arguments.length ≤ 6 then some ⟨id, arguments, h⟩ else none

/-- The call with its operands as words, each cast apart from the others. -/
def toCall (call : TypedCall) : Call where
  id := call.id.toWord
  arguments := call.arguments.map Operand.toWord
  length_le := by simpa using call.length_le

end TypedCall

namespace Machine

/-- One step of a run. -/
inductive Step where
  /-- A system call through the entry code, all registers loaded first. -/
  | entryCode (regs : Registers)
  /-- A staged call, routed on the processor. -/
  | route (regs : Registers)
  /-- A call routed for a caller that passes the registers in memory, or passes
  nothing. -/
  | routeImage (regs : Option Registers)
  /-- A system call from a call site. -/
  | call (call : Call)
  /-- A system call from a call site with typed operands. -/
  | typedCall (call : TypedCall)
  /-- Asks for the privilege class, then for the selector. -/
  | classify
  | readMsr (msr : UInt32)
  | writeMsr (msr : UInt32) (value : UInt64)
  | vmgexit
  | pause
  | halt
  /-- Terminates the guest with a reason. -/
  | terminate (reasonSet reasonCode : UInt64)
  | terminateGeneral
  | terminateNotSnp
  /-- Checks that calls can be redirected. -/
  | startUp
  /-- Sets the console up. -/
  | serialSetUp
  /-- Prints a text on the console. -/
  | print (text : String)
  /-- Prints a word and ends the line. -/
  | printHex (value : UInt64)
  /-- Writes a text to a serial port that nothing set up. -/
  | portWrite (base : UInt16) (text : String)
  /-- Changes the code selector. -/
  | setSelector (selector : UInt16)
  /-- Changes an MSR. -/
  | setMsr (msr : UInt32) (value : UInt64)
  /-- Asks where the entry code lies. -/
  | addresses

/-- One thing a handler does. -/
inductive Action where
  | register (action : RegisterAction)
  /-- From now on the code selector is this one. -/
  | selector (selector : UInt16)
  /-- From now on the MSR holds this value. -/
  | msr (msr : UInt32) (value : UInt64)
  /-- Runs a step in the middle of the one being served. -/
  | run (step : Step)

/-- Why a step has no result of its own. -/
inductive Stop where
  /-- It halted, or waited, as often as it may. -/
  | halted
  | fault (fault : Fault)
  deriving DecidableEq, Repr

/-- What a step comes to. -/
inductive Result where
  /-- The registers after the entry code. -/
  | registers (regs : Registers)
  | routed (way : Route) (regs : Registers)
  /-- A signed return value, and the registers in memory if there were any. -/
  | answered (ret : Int64) (regs : Option Registers)
  /-- The word a call site gets. -/
  | returned (ret : UInt64)
  | classified (answer : CallerClass) (selector : UInt16)
  | value (word : UInt64)
  | done
  | written (ok : Bool)
  /-- Whether the address given out is the entry, whether the entry comes before
  the end, and whether the code is shorter than a cache line. -/
  | addresses (same ordered short : Bool)
  | stopped (stop : Stop)
  deriving DecidableEq, Repr

/-- The last registers of a handler, after a step it ran came to a result. -/
def Result.updateLast (last : Registers) : Result → Registers
  | registers regs | routed _ regs => regs
  | answered ret regs => { regs.getD Registers.zero with rax := ret.toUInt64 }
  | returned word | value word => { last with rax := word }
  | classified _ selector => { last with rax := selector.toUInt64 }
  | done | written _ | addresses _ _ _ | stopped _ => last

end Machine
end SyscallGate
