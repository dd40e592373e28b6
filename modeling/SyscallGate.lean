import SyscallGate.Constants
import SyscallGate.Machine.Run
import SyscallGate.Recorder
import SyscallGate.Serial.Uart
import SyscallGate.TicketLock.Contenders
import SyscallGate.TicketLock.Session
import SyscallGate.Proofs.Integer
import SyscallGate.Proofs.Text
import SyscallGate.Proofs.EntryCode
import SyscallGate.Proofs.Routing
import SyscallGate.Proofs.SaveArea.Uses
import SyscallGate.Proofs.Privilege
import SyscallGate.Proofs.Recorder.Derivation
import SyscallGate.Proofs.Recorder.Grammar
import SyscallGate.Proofs.Recorder.Isolation
import SyscallGate.Proofs.Recorder.Outline
import SyscallGate.Proofs.Register.Image
import SyscallGate.Proofs.Lockstep
import SyscallGate.Proofs.Machine.Gate
import SyscallGate.Proofs.Machine.Kept
import SyscallGate.Proofs.Machine.Instructions
import SyscallGate.Proofs.Machine.Past
import SyscallGate.Proofs.Machine.Window
import SyscallGate.Proofs.Machine.WaysIn
import SyscallGate.Proofs.Machine.Replay
import SyscallGate.Proofs.Machine.Requests
import SyscallGate.Proofs.Machine.Console
import SyscallGate.Proofs.Machine.Faultless
import SyscallGate.Proofs.Machine.Talks
import SyscallGate.Proofs.Machine.Muted
import SyscallGate.Proofs.Machine.Silence
import SyscallGate.Proofs.Machine.Own
import SyscallGate.Proofs.Machine.Msrs
import SyscallGate.Proofs.Machine.Granted
import SyscallGate.Proofs.Machine.Sayings
import SyscallGate.Proofs.Machine.Transmission
import SyscallGate.Proofs.Machine.Classes
import SyscallGate.Proofs.Machine.Termination
import SyscallGate.Proofs.TicketLock.Line
import SyscallGate.Proofs.TicketLock.Exclusion
import SyscallGate.Proofs.TicketLock.Turns
import SyscallGate.Proofs.Machine.StartUp
import SyscallGate.Proofs.Recorder.Counting
import SyscallGate.Proofs.Machine.TakenBack
import SyscallGate.Proofs.TicketLock.Ledger
import SyscallGate.Proofs.Machine.Returned
import SyscallGate.Proofs.TicketLock.Releases
import SyscallGate.Proofs.Ghcb
import SyscallGate.Proofs.Machine.Memory
import SyscallGate.Proofs.Machine.LineControl
import SyscallGate.Proofs.Machine.Interchange
import SyscallGate.Proofs.Machine.Operands
