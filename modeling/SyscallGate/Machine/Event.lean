/-
# What happens in a machine

The history of a machine says more than its printed trace: beside the
instructions that a trace shows, it has the changes of the selector and of MSRs
that no instruction made, the comings and goings at the console's lock, and the
messages sent there. What the machine holds at any moment can be read off it.

In the trace, bytes written to one port directly after each other are one
entry.

Key definitions: `Machine.Event`, `Machine.Entry`, `Machine.trace`.
-/
import SyscallGate.Machine.Step

namespace SyscallGate
namespace Machine

/-- The instructions that leave the code for whoever serves it. -/
inductive Exit where
  | syscall
  | vmgexit
  deriving DecidableEq, Repr

/-- Why the code left. -/
inductive Purpose where
  /-- To have a system call served. -/
  | call
  /-- To have the guest terminated for a reason. -/
  | terminate (reasonSet reasonCode : UInt64)
  /-- For what its caller put into the MSR. -/
  | request
  deriving DecidableEq, Repr

/-- One thing that happened. -/
inductive Event where
  | readSelector (selector : UInt16)
  | readMsr (msr : UInt32) (value : UInt64)
  | writeMsr (msr : UInt32) (value : UInt64)
  | input (port : UInt16) (byte : UInt8)
  | output (port : UInt16) (byte : UInt8)
  /-- The code left, with these registers in sight. -/
  | exit (kind : Exit) (purpose : Purpose) (shown : List (Register × UInt64))
  | halt
  | pause
  /-- A PAUSE in the wait for the console's lock. -/
  | spin
  /-- A step begins in the middle of another. -/
  | enter
  /-- It ends. -/
  | leave (result : Result)
  /-- The selector was changed from outside. -/
  | setSelector (selector : UInt16)
  /-- An MSR was changed from outside. -/
  | setMsr (msr : UInt32) (value : UInt64)
  /-- The console's lock was granted. -/
  | locked
  /-- The console's lock was given up. -/
  | unlocked
  /-- A message for the console. -/
  | message (bytes : List UInt8)
  /-- The console was set up. -/
  | setUp
  deriving DecidableEq, Repr

/-- One entry of a trace. -/
inductive Entry where
  | readSelector (selector : UInt16)
  | readMsr (msr : UInt32) (value : UInt64)
  | writeMsr (msr : UInt32) (value : UInt64)
  | input (port : UInt16) (byte : UInt8)
  /-- Bytes written to a port one after another. -/
  | output (port : UInt16) (bytes : List UInt8)
  /-- The code left; the registers where they matter. -/
  | exit (kind : Exit) (shown : Option (List (Register × UInt64)))
  | halt
  | pause
  | enter
  | leave (result : Result)
  deriving DecidableEq, Repr

/-- An event as an entry, if a trace shows it. -/
def Event.entry? : Event → Option Entry
  | readSelector selector => some (.readSelector selector)
  | readMsr msr value => some (.readMsr msr value)
  | writeMsr msr value => some (.writeMsr msr value)
  | input port byte => some (.input port byte)
  | output port byte => some (.output port [byte])
  | exit kind .call shown => some (.exit kind (some shown))
  | exit kind (.terminate _ _) _ | exit kind .request _ => some (.exit kind none)
  | halt => some .halt
  | pause | spin => some .pause
  | enter => some .enter
  | leave result => some (.leave result)
  | setSelector _ | setMsr _ _ | locked | unlocked | message _ | setUp => none

/-- An entry in front of others; it joins the first if both are output to one port. -/
def Entry.join (first : Entry) (rest : List Entry) : List Entry :=
  match first, rest with
  | output port bytes, output port' bytes' :: more =>
    if port = port' then output port (bytes ++ bytes') :: more else first :: rest
  | _, _ => first :: rest

/-- The trace of events, oldest first. -/
def trace (events : List Event) : List Entry :=
  (events.filterMap Event.entry?).foldr Entry.join []

end Machine
end SyscallGate
