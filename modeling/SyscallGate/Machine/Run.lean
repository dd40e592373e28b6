/-
# Runs of a machine

A run carries out steps, and whenever one of them leaves, the next handler of
the script, which may run steps of its own. Before a handler runs a step it was
taken off the script, so steps nest no deeper than the script is long; `serve`
is by recursion on that bound, and `Machine.handle` chooses it. A step that is
stopped stops alone: what it interrupted goes on.

Key definitions: `Machine.Settings`, `Machine.carryOut`, `Machine.runStep`,
`Machine.serve`, `Machine.handle`, `Machine.Report`, `Machine.run`.
-/
import SyscallGate.Machine.Call
import SyscallGate.Machine.Guest

namespace SyscallGate
namespace Machine

/-- What holds for all steps of a run. -/
structure Settings where
  /-- Whether the build has messages. -/
  verbose : Bool
  /-- The HLT that stops a step. -/
  halts : Nat
  /-- The PAUSE that stops a step. -/
  pauses : Nat
  /-- The address of the entry code. -/
  entry : UInt64

section Step

variable (settings : Settings) (server : Server)

/-- Carries out a step. -/
def carryOut : Step → Exec Result
  | .entryCode regs => return .registers (← callLoaded server regs)
  | .route regs => do
    let (way, regs) ← routeStaged server regs
    return .routed way regs
  | .routeImage regs => do
    let (ret, image) ← routeImage settings.verbose server (regs.map Image.encode)
    return .answered ret (image.map Image.decode)
  | .call call => return .returned (← callSite server call)
  | .typedCall call => return .returned (← callSite server call.toCall)
  | .classify => do
    let answer ← callerClass
    let selector ← readSelector
    return .classified answer selector
  | .readMsr msr => return .value (← readMsr msr)
  | .writeMsr msr value => do
    writeMsr msr value
    return .done
  | .vmgexit => do
    vmgexit server .request
    return .done
  | .pause => do
    pause
    return .done
  | .halt => do
    halt
    return .done
  | .terminate reasonSet reasonCode => terminate server reasonSet reasonCode
  | .terminateGeneral => terminateGeneral server
  | .terminateNotSnp => terminateNotSnp server
  | .startUp => do
    startUp settings.verbose settings.entry server
    return .done
  | .serialSetUp => do
    setUpConsole settings.verbose
    return .done
  | .print text => do
    print settings.verbose text
    return .done
  | .printHex value => do
    print settings.verbose (Numeral.hex value.toNat ++ "\n")
    return .done
  | .portWrite base text => do
    orStop ((SerialPort.new base).send ports (textBytes text))
    return .written true
  | .setSelector selector => do
    setSelector selector
    return .done
  | .setMsr msr value => do
    setMsr msr value
    return .done
  | .addresses =>
    let finish := EntryCode.finish settings.entry
    return .addresses (EntryCode.givenAddress settings.entry == settings.entry)
      (settings.entry < finish) (finish - settings.entry < 64)

/-- Runs a step with HLTs and PAUSEs of its own. -/
def runStep (step : Step) : StateM Machine Result := do
  let outer ← get
  modify fun m => { m with haltsLeft := settings.halts, pausesLeft := settings.pauses }
  let result ← (carryOut settings server step).run
  modify fun m => { m with haltsLeft := outer.haltsLeft, pausesLeft := outer.pausesLeft }
  match result with
  | .ok result => return result
  | .error stop => return .stopped stop

/-- Carries out one action of a handler. -/
def perform (h : Handling) : Action → StateM Machine Handling
  | .register action => return { h with regs := action.apply h }
  | .selector selector => do
    setSelector selector
    return h
  | .msr msr value => do
    setMsr msr value
    return h
  | .run step => do
    record .enter
    let result ← runStep settings server step
    record (.leave result)
    return { h with last := result.updateLast h.last }

end Step

/-- Takes the next handler off the script. -/
def nextHandler : StateM Machine (Option (List Action)) :=
  modifyGet fun m =>
    match m.script with
    | [] => (none, m)
    | handler :: script => (some handler, { m with script })

/-- Serves an instruction that left: the next handler acts on its registers.
Steps nest at most `depth` deep. -/
def serve (settings : Settings) : Nat → Server
  | 0, regs => return regs
  | depth + 1, regs => do
    match ← nextHandler with
    | none => return regs
    | some handler =>
      let h ← handler.foldlM (perform settings (serve settings depth)) (Handling.start regs)
      return h.regs

/-- Serves an instruction that left, by the script. -/
def handle (settings : Settings) : Server := fun regs => do
  serve settings (← get).script.length regs

/-- A step's result and what happened in it, oldest first. -/
structure Report where
  result : Result
  events : List Event

/-- A fault that kept a step, or one that ran in the middle of it, from coming
to a result. -/
def Report.fault? (report : Report) : Option Fault :=
  match report.result with
  | .stopped (.fault fault) => some fault
  | _ => report.events.findSome? fun
    | .leave (.stopped (.fault fault)) => some fault
    | _ => none

variable (settings : Settings)

/-- Runs a step and reports on it. -/
def report (step : Step) : StateM Machine Report := do
  let before := (← get).history
  let result ← runStep settings (handle settings) step
  return ⟨result, since before (← get).history⟩

/-- Runs steps one after another. -/
def reports : List Step → StateM Machine (List Report)
  | [] => return []
  | step :: steps => do
    let first ← report settings step
    let rest ← reports steps
    return first :: rest

/-- A machine before its first step. -/
def start (selector : UInt16) (msrs : List (UInt32 × UInt64)) (input : List UInt8)
    (serialReady : Bool) (script : List (List Action)) : Machine where
  selector := selector
  msrs := msrs.foldl (fun cells (msr, value) => assign cells msr value) fun _ => 0
  input := input
  written := fun _ => 0
  console := TicketLock.new ⟨SerialPort.firstLine, serialReady⟩
  script := script
  haltsLeft := settings.halts
  pausesLeft := settings.pauses
  history := []

/-- The reports of a run from a machine. -/
def run (machine : Machine) (steps : List Step) : List Report := (reports settings steps machine).1

end Machine
end SyscallGate
