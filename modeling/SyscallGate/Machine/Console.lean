/-
# The console

Messages go to a serial port behind a ticket lock, one message for each time
the lock is held. A build without messages leaves lock and port alone. A wait
for the lock is a loop of PAUSEs, so it ends with the step at the latest.

Key definitions: `Machine.withConsole`, `Machine.print`, `Machine.setUpConsole`.
-/
import SyscallGate.Machine.Instruction

namespace SyscallGate
namespace Machine

/-- Waits until a ticket for the console is served, through at most that many PAUSEs. -/
def awaitTicket (ticket : UInt64) : Nat → Exec Unit
  | 0 => throw .halted
  | left + 1 => do
    if (← get).console.isServing ticket then return
    else
      pauseAs .spin
      awaitTicket ticket left

/-- Takes the console's lock. -/
def lockConsole : Exec Unit := do
  let ticket ← modifyGet fun m : Machine =>
    let (ticket, console) := m.console.take
    (ticket, { m with console })
  awaitTicket ticket ((← get).pausesLeft + 1)
  record .locked

/-- Gives the console's lock up. -/
def unlockConsole : Exec Unit := do
  modify fun m => { m with console := m.console.release }
  record .unlocked

/-- Works on the serial port while the console's lock is held. -/
def withConsole (work : SerialPort → ExceptT Fault (StateM Machine) SerialPort) : Exec Unit := do
  lockConsole
  let port ← orStop (work (← get).console.value)
  modify fun m => { m with console := { m.console with value := port } }
  unlockConsole

/-- Sends a message to the console, if the build has messages. -/
def print (verbose : Bool) (text : String) : Exec Unit :=
  if verbose then
    withConsole fun port => do
      record (.message (textBytes text))
      port.send ports (textBytes text)
      return port
  else return

/-- Sets the console up, if the build has messages. -/
def setUpConsole (verbose : Bool) : Exec Unit :=
  if verbose then
    withConsole fun port => do
      let port ← port.setUp ports
      record .setUp
      return port
  else return

end Machine
end SyscallGate
