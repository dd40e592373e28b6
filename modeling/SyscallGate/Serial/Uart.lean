/-
# What a 16550 makes of the bytes written to it

The device at the other end of the ports: it has a line control, a divisor and
a transmitter, and the top bit of the line control decides whether a byte for
the first two ports is for the divisor or for the registers it shares them
with.

Key definitions: `Uart`, `Uart.write`, `Uart.writeAll`.
-/
import SyscallGate.Serial

namespace SyscallGate

/-- The state of the device, and the bytes it was given to transmit, oldest first. -/
structure Uart where
  interrupts : UInt8
  lineControl : UInt8
  divisorLow : UInt8
  divisorHigh : UInt8
  transmitted : List UInt8
  deriving DecidableEq, Repr

namespace Uart

/-- Whether the divisor stands in place of the first two registers. -/
def divisorAccess (uart : Uart) : Bool := uart.lineControl &&& SerialPort.divisorAccess != 0

/-- A byte written to the register at an offset. -/
def write (uart : Uart) (offset : Nat) (byte : UInt8) : Uart :=
  match offset with
  | 0 =>
    if uart.divisorAccess then { uart with divisorLow := byte }
    else { uart with transmitted := uart.transmitted ++ [byte] }
  | 1 =>
    if uart.divisorAccess then { uart with divisorHigh := byte }
    else { uart with interrupts := byte }
  | 3 => { uart with lineControl := byte }
  | _ => uart

/-- Bytes written to I/O ports, in order, seen by the device at `base`. -/
def writeAll (base : UInt16) (uart : Uart) (writes : List (UInt16 × UInt8)) : Uart :=
  writes.foldl (fun uart (port, byte) =>
    if base ≤ port then uart.write (port.toNat - base.toNat) byte else uart) uart

end Uart
end SyscallGate
