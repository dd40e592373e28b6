/-
# A processor that keeps a record

The recorder is a processor in software. It takes the code selector from its
state, writes down every question and every instruction, changes no register of
its own accord, and serves the instructions that leave by a script: each takes
the next handler, in the order they begin, and a handler may change registers
and the selector and make calls of its own. When the script is used up, nobody
does anything.

A handler was taken off the script before it makes calls of its own, so calls
nest no deeper than the script is long. `serve` is by recursion on that bound,
and `Recorder.call` chooses it.

Key definitions: `Recorder`, `Recorder.Action`, `Recorder.Event`,
`Recorder.serve`, `Recorder.call`, `Recorder.run`.
-/
import SyscallGate.Outcome
import SyscallGate.Register.Action
import SyscallGate.Route
import SyscallGate.State

namespace SyscallGate

namespace Recorder

/-- One thing a handler does. -/
inductive Action where
  | register (action : RegisterAction)
  /-- From now on the code selector is this one. -/
  | selector (selector : UInt16)
  /-- A call of another register set. -/
  | call (regs : Registers)
  /-- A call of the very register set being served. -/
  | again
  deriving DecidableEq, Repr

/-- One thing that happened. -/
inductive Event where
  /-- The class was asked for and given. -/
  | classify (selector : UInt16) (answer : CallerClass)
  | writeMsr (msr : UInt32) (value : UInt64)
  /-- SYSCALL began, with these registers. -/
  | syscall (regs : Registers)
  /-- VMGEXIT began, with these registers. -/
  | vmgexit (regs : Registers)
  /-- A handler's own call came back. -/
  | returned (way : Route) (regs : Registers)
  /-- A handler's own call had no result. -/
  | failed (fault : Fault)
  deriving DecidableEq, Repr

end Recorder

/-- The recording processor: its selector, the handlers to come, the record. -/
structure Recorder where
  selector : UInt16
  script : List (List Recorder.Action)
  history : List Recorder.Event

namespace Recorder

/-- How the class is found from a selector. -/
inductive Classifier where
  /-- From the selector's bits. -/
  | bySelector
  /-- From the ring the selector names. -/
  | byRing
  deriving DecidableEq, Repr

/-- The class of a selector. -/
def Classifier.classify : Classifier → UInt16 → CallerClass
  | bySelector, selector => .ofSelector selector
  | byRing, selector => .ofRing (.ofSelector selector)

/-- Writes an event down. -/
def record (event : Event) : StateM Recorder Unit :=
  modify fun r => { r with history := event :: r.history }

/-- Takes the next handler off the script. -/
def nextHandler : StateM Recorder (Option (List Action)) :=
  modifyGet fun r =>
    match r.script with
    | [] => (none, r)
    | handler :: script => (some handler, { r with script })

section Handler

variable (classifier : Classifier) (leave : Registers → StateM Recorder Registers)

/-- The processor, given what an instruction that leaves comes back with. -/
def processor : Processor (StateM Recorder) where
  callerClass := do
    let selector := (← get).selector
    let answer := classifier.classify selector
    record (.classify selector answer)
    return answer
  writeMsr msr value := record (.writeMsr msr value)
  syscall regs := do
    record (.syscall regs)
    leave regs
  vmgexit regs := do
    record (.vmgexit regs)
    leave regs

/-- Makes a call on the processor. -/
def callWith (regs : Registers) : StateM Recorder (Except Fault (Route × Registers)) :=
  (route (processor classifier leave) regs).run

/-- A handler's own call: its return is recorded. -/
def nested (regs : Registers) : StateM Recorder (Option Registers) := do
  match ← callWith classifier leave regs with
  | .ok (way, after) =>
    record (.returned way after)
    return some after
  | .error fault =>
    record (.failed fault)
    return none

/-- Carries out one action. -/
def perform (h : Handling) : Action → StateM Recorder Handling
  | .register action => return { h with regs := action.apply h }
  | .selector selector => do
    modify fun r => { r with selector }
    return h
  | .call regs => do
    match ← nested classifier leave regs with
    | some after => return { h with last := after }
    | none => return h
  | .again => do
    match ← nested classifier leave h.regs with
    | some after => return ⟨after, after⟩
    | none => return h

end Handler

/-- Serves an instruction that left: the next handler acts on its registers.
Calls nest at most `depth` deep. -/
def serve (classifier : Classifier) : Nat → Registers → StateM Recorder Registers
  | 0, regs => return regs
  | depth + 1, regs => do
    match ← nextHandler with
    | none => return regs
    | some handler =>
      let h ← handler.foldlM (perform classifier (serve classifier depth)) (Handling.start regs)
      return h.regs

variable (classifier : Classifier)

/-- Makes a call on the processor, its leaving instruction served by the script. -/
def call (regs : Registers) : StateM Recorder (Except Fault (Route × Registers)) := do
  let depth := (← get).script.length
  callWith classifier (serve classifier depth) regs

/-- A call from outside, perhaps with a selector of its own. -/
structure Call where
  regs : Registers
  selector : Option UInt16

/-- What a call from outside came to. -/
structure Answer where
  way : Route
  regs : Registers
  events : List Event
  deriving DecidableEq, Repr

/-- The outcome of the call. -/
def Answer.outcome (answer : Answer) : Outcome := .ofReturn answer.regs.returned

/-- The first of a handler's own calls that had no result. -/
def firstFailure (events : List Event) : Option Fault :=
  events.findSome? fun
    | .failed fault => some fault
    | _ => none

/-- Makes one call from outside. It has an answer if it and all calls that
handlers made in it came to a result. -/
def answer (c : Call) : StateM Recorder (Except Fault Answer) := do
  modify fun r => { r with selector := c.selector.getD r.selector }
  let before := (← get).history
  let result ← call classifier c.regs
  let events := since before (← get).history
  match firstFailure events, result with
  | some fault, _ => return .error fault
  | none, .error fault => return .error fault
  | none, .ok (way, regs) => return .ok { way, regs, events }

/-- Makes calls from outside, one after another. -/
def answers : List Call → StateM Recorder (List (Except Fault Answer))
  | [] => return []
  | c :: calls => do
    let first ← answer classifier c
    let rest ← answers calls
    return first :: rest

/-- The processor before anything happened. -/
def start (selector : UInt16) (script : List (List Action)) : Recorder := ⟨selector, script, []⟩

/-- The answers to `calls` on a fresh processor; the first fault, if there is one. -/
def run (selector : UInt16) (script : List (List Action)) (calls : List Call) :
    Except Fault (List Answer) :=
  (answers classifier calls (start selector script)).1.mapM id

end Recorder
end SyscallGate
