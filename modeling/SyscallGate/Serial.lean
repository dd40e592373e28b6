/-
# A serial port

A serial port is eight consecutive I/O ports of a 16550. It is initialised once
with eight data bits, no parity, one stop bit and the divisor of the fastest
rate; until then nothing is sent. Two of its registers share their ports with
the divisor: bit 7 of the line control says which are meant, and is put back to
what it was.

Key definitions: `SerialPort`, `SerialPort.Ports`, `SerialPort.setUp`,
`SerialPort.send`.
-/
import SyscallGate.Fault

namespace SyscallGate

/-- A serial port at a base address, and whether it was set up. -/
structure SerialPort where
  base : UInt16
  ready : Bool
  deriving DecidableEq, Repr

namespace SerialPort

/-- The port of the first serial line. -/
def firstLine : UInt16 := 0x3f8

/-- The rate of a divisor of one. -/
def fastestRate : UInt64 := 115200

/-- The bit of the line control that puts the divisor in place of two registers. -/
def divisorAccess : UInt8 := 0x80

/-- Register that a byte to send is written to. -/
def transmit : UInt16 := 0

/-- Register that enables interrupts. -/
def interruptEnable : UInt16 := 1

/-- Register that controls the queues. -/
def queueControl : UInt16 := 2

/-- Register that controls the line. -/
def lineControl : UInt16 := 3

/-- Register that controls the modem. -/
def modemControl : UInt16 := 4

/-- Register with the low byte of the divisor. -/
def divisorLow : UInt16 := 0

/-- Register with the high byte of the divisor. -/
def divisorHigh : UInt16 := 1

/-- Eight data bits, no parity, one stop bit. -/
def eightBits : UInt8 := 3

/-- Ready to talk and to receive. -/
def terminalReady : UInt8 := 3

/-- The divisor of a rate. -/
def divisor (rate : UInt64) : UInt16 := (fastestRate / rate).toUInt16

/-- A port that was not set up. -/
def new (base : UInt16) : SerialPort := ⟨base, false⟩

/-- The I/O port of a register; a fault beyond the last port. -/
def address (port : SerialPort) (register : UInt16) : Except Fault UInt16 :=
  if port.base.toNat + register.toNat < UInt16.size then .ok (port.base + register)
  else .error .addOverflow

/-- The instructions IN and OUT. -/
structure Ports (m : Type → Type) where
  input : UInt16 → m UInt8
  output : UInt16 → UInt8 → m Unit

variable {m : Type → Type} [Monad m] (ports : Ports m)

/-- Writes one register. -/
def write (port : SerialPort) (register : UInt16) (byte : UInt8) : ExceptT Fault m Unit := do
  let address ← port.address register
  ports.output address byte

/-- Reads one register. -/
def read (port : SerialPort) (register : UInt16) : ExceptT Fault m UInt8 := do
  let address ← port.address register
  ports.input address

/-- Sets the port up. -/
def setUp (port : SerialPort) : ExceptT Fault m SerialPort := do
  port.write ports interruptEnable 0
  port.write ports queueControl 0
  port.write ports lineControl eightBits
  port.write ports modemControl terminalReady
  let divisor := divisor fastestRate
  let control ← port.read ports lineControl
  port.write ports lineControl (control ||| divisorAccess)
  port.write ports divisorLow divisor.toUInt8
  port.write ports divisorHigh (divisor >>> 8).toUInt8
  port.write ports lineControl control
  return { port with ready := true }

/-- Writes bytes to the transmitter, in order. -/
def transmitAll (port : SerialPort) : List UInt8 → ExceptT Fault m Unit
  | [] => return
  | byte :: bytes => do
    port.write ports transmit byte
    port.transmitAll bytes

/-- Sends bytes; before the port is set up, none. -/
def send (port : SerialPort) (bytes : List UInt8) : ExceptT Fault m Unit :=
  if port.ready then port.transmitAll ports bytes else return

end SerialPort

/-- The bytes of a text. -/
def textBytes (text : String) : List UInt8 := text.toUTF8.toList

end SyscallGate
