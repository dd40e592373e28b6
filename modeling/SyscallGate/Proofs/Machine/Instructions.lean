/-
# From single instructions to whole steps

A relation between machines that single instructions keep is kept by all that
is made of them. The console has instructions of its own: what a relation owes
to those is `Talking`, and then the console with its lock and its serial port
keeps it. What it owes to the others is `Bare`, and then halting and leaving
keep it; with the script it is `Plain`. `Instructions` asks for all of that, and
`Instructions.kept` says that it is enough. For a relation that not every leaving
keeps, `Instructions.kept_of_leaving` asks for the code that leaves instead; for
one that the console keeps only as a whole, `Plain.kept_of_exit` asks for the
console.

Key definitions: `Machine.Event.isNote`, `Machine.Event.isTalk`,
`Machine.Bare`, `Machine.Plain`, `Machine.Talking`, `Machine.Instructions`.
Key theorems: `Machine.Bare.stepwise`, `Machine.Bare.stepwise_of_exit`,
`Machine.Plain.kept`, `Machine.Plain.kept_of_exit`, `Machine.Talking.print`,
`Machine.Talking.setUpConsole`, `Machine.Instructions.kept_of_leaving`,
`Machine.Instructions.kept`.
-/
import SyscallGate.Proofs.Machine.Kept

namespace SyscallGate
namespace Machine

/-- Whether an event only says that something happened, and nothing that a
machine holds can be read off it. -/
def Event.isNote : Event → Bool
  | halt | pause | spin | enter | leave _ | locked | unlocked | message _ | setUp => true
  | _ => false

/-- Whether an event is of somebody who talks to the console. -/
def Event.isTalk : Event → Bool
  | input _ _ | output _ _ | locked | unlocked | message _ | setUp => true
  | _ => false

variable {R : Machine → Machine → Prop}

theorem lockstep_orStop {α : Type} {x y : ExceptT Fault (StateM Machine) α} (h : Lockstep R x.run y.run) :
    Lockstep R (orStop x).run (orStop y).run := by
  refine h.bind fun result => ?_
  cases result with
  | ok value => exact .pure _
  | error fault => exact .pure _

/-- HLT is a note, and one HLT less. -/
theorem lockstep_halt (hrecord : Lockstep R (record .halt) (record .halt))
    (haltsLeft : ∀ {m n}, R m n → m.haltsLeft = n.haltsLeft)
    (setHalts : ∀ {m n} (haltsLeft : Nat), R m n → R { m with haltsLeft } { n with haltsLeft }) :
    Lockstep R halt.run halt.run := by
  refine .run_bind (.run_lift hrecord) fun _ => .run_get_bind fun m n h => ?_
  rw [haltsLeft h]
  match n.haltsLeft with
  | 0 | 1 => exact ⟨rfl, h⟩
  | left + 2 => exact ⟨rfl, setHalts (left + 1) h⟩

theorem lockstep_haltTimes {α : Type} (halt : Lockstep R halt.run halt.run) : ∀ count : Nat,
    Lockstep R (haltTimes count : Exec α).run (haltTimes count : Exec α).run
  | 0 => .pure (Except.error Stop.halted)
  | count + 1 => .run_bind halt fun _ => lockstep_haltTimes halt count

theorem lockstep_haltForever {α : Type} (halt : Lockstep R halt.run halt.run)
    (haltsLeft : ∀ {m n}, R m n → m.haltsLeft = n.haltsLeft) :
    Lockstep R (haltForever : Exec α).run (haltForever : Exec α).run := by
  refine .run_get_bind fun m n h => ?_
  rw [haltsLeft h]
  exact lockstep_haltTimes halt _ m n h

/-- PAUSE is a note, and one PAUSE less. -/
theorem lockstep_pauseAs {event : Event} (hrecord : Lockstep R (record event) (record event))
    (pausesLeft : ∀ {m n}, R m n → m.pausesLeft = n.pausesLeft)
    (setPauses : ∀ {m n} (pausesLeft : Nat), R m n → R { m with pausesLeft } { n with pausesLeft }) :
    Lockstep R (pauseAs event).run (pauseAs event).run := by
  refine .run_bind (.run_lift hrecord) fun _ => .run_get_bind fun m n h => ?_
  rw [pausesLeft h]
  match n.pausesLeft with
  | 0 | 1 => exact ⟨rfl, h⟩
  | left + 2 => exact ⟨rfl, setPauses (left + 1) h⟩

/-! ### Instructions apart from the console -/

/-- What a relation owes to the instructions that have nothing to do with the
console, nor with the script. -/
structure Bare (R : Machine → Machine → Prop) : Prop where
  haltsLeft : ∀ {m n}, R m n → m.haltsLeft = n.haltsLeft
  pausesLeft : ∀ {m n}, R m n → m.pausesLeft = n.pausesLeft
  setHalts : ∀ {m n} (haltsLeft : Nat), R m n → R { m with haltsLeft } { n with haltsLeft }
  setPauses : ∀ {m n} (pausesLeft : Nat), R m n → R { m with pausesLeft } { n with pausesLeft }
  halted : Lockstep R (record .halt) (record .halt)
  paused : Lockstep R (record .pause) (record .pause)
  entered : Lockstep R (record .enter) (record .enter)
  setSelector : ∀ selector, Lockstep R (setSelector selector) (setSelector selector)
  setMsr : ∀ msr value, Lockstep R (setMsr msr value) (setMsr msr value)
  readSelector : Lockstep R readSelector readSelector
  readMsr : ∀ msr, Lockstep R (readMsr msr) (readMsr msr)
  writeMsr : ∀ msr value, Lockstep R (writeMsr msr value) (writeMsr msr value)

/-- What a relation owes to all that has nothing to do with the console. -/
structure Plain (R : Machine → Machine → Prop) : Prop extends Bare R where
  script : ∀ {m n}, R m n → m.script.length = n.script.length
  nextHandler : Lockstep R nextHandler nextHandler

namespace Bare

variable (b : Bare R)

include b

theorem halt : Lockstep R halt.run halt.run := lockstep_halt b.halted b.haltsLeft b.setHalts

theorem haltForever {α : Type} : Lockstep R (haltForever : Exec α).run (haltForever : Exec α).run :=
  lockstep_haltForever b.halt b.haltsLeft

theorem approach : Lockstep R approach approach := by
  refine b.readSelector.bind fun selector => ?_
  by_cases hring : selector &&& 3 = 0
  · rw [if_pos hring]
    exact (b.writeMsr _ _).bind fun _ => .pure _
  · rw [if_neg hring]
    exact .pure _

/-- A relation that the console keeps, and the code that leaves, is kept by steps. -/
theorem stepwise {settings settings' : Settings} (halts : settings.halts = settings'.halts)
    (pauses : settings.pauses = settings'.pauses) (entry : settings.entry = settings'.entry)
    (leave : ∀ server step (n : Machine),
      Lockstep R (record (.leave ((runStep settings' server step).run n).1))
        (record (.leave ((runStep settings' server step).run n).1)))
    (print : ∀ text, Lockstep R (print settings.verbose text).run (print settings'.verbose text).run)
    (setUpConsole : Lockstep R (setUpConsole settings.verbose).run (setUpConsole settings'.verbose).run)
    (gate : ∀ {server server'}, Companions R server server' → ∀ window regs,
      Lockstep R (gate server window regs) (gate server' window regs))
    (terminate : ∀ {server server'}, Companions R server server' → ∀ {α : Type} reasonSet reasonCode,
      Lockstep R (terminate server reasonSet reasonCode : Exec α).run
        (terminate server' reasonSet reasonCode : Exec α).run)
    (request : ∀ {server server'}, Companions R server server' →
      Lockstep R (vmgexit server .request) (vmgexit server' .request)) :
    Stepwise R settings settings' where
  halts := halts
  pauses := pauses
  entry := entry
  haltsLeft := b.haltsLeft
  pausesLeft := b.pausesLeft
  budget haltsLeft pausesLeft h := b.setPauses pausesLeft (b.setHalts haltsLeft h)
  setSelector := b.setSelector
  setMsr := b.setMsr
  enter := b.entered
  leave := leave
  readSelector := b.readSelector
  readMsr := b.readMsr
  writeMsr := b.writeMsr
  halt := b.halt
  pause := lockstep_pauseAs b.paused b.pausesLeft b.setPauses
  print := print
  setUpConsole := setUpConsole
  gate := gate
  terminate := terminate
  request := request

section Leaving

variable (exit : ∀ kind purpose shown,
    Lockstep R (record (.exit kind purpose shown)) (record (.exit kind purpose shown)))
  {server server' : Server} (hs : Companions R server server')

include exit hs

omit b in
theorem leaveFor (kind : Exit) (purpose : Purpose) (window : Window) (regs : Registers) :
    Lockstep R (leaveFor server kind purpose window regs) (leaveFor server' kind purpose window regs) :=
  (exit kind purpose _).bind fun _ => (hs _).bind fun _ => .pure _

omit b in
theorem vmgexit (purpose : Purpose) : Lockstep R (vmgexit server purpose) (vmgexit server' purpose) :=
  (leaveFor exit hs _ _ _ _).bind fun _ => .pure _

theorem gate (window : Exit → Window) (regs : Registers) :
    Lockstep R (gate server window regs) (gate server' window regs) :=
  b.approach.bind fun kind => (leaveFor exit hs kind _ _ _).bind fun _ => .pure _

theorem terminate {α : Type} (reasonSet reasonCode : UInt64) :
    Lockstep R (terminate server reasonSet reasonCode : Exec α).run
      (terminate server' reasonSet reasonCode : Exec α).run :=
  .run_bind (.run_lift (b.writeMsr _ _)) fun _ =>
    .run_bind (.run_lift (vmgexit exit hs _)) fun _ => b.haltForever

end Leaving

/-- A relation that the console keeps, and every exit, is kept by steps. -/
theorem stepwise_of_exit {settings settings' : Settings} (halts : settings.halts = settings'.halts)
    (pauses : settings.pauses = settings'.pauses) (entry : settings.entry = settings'.entry)
    (exit : ∀ kind purpose shown,
      Lockstep R (record (.exit kind purpose shown)) (record (.exit kind purpose shown)))
    (leave : ∀ server step (n : Machine),
      Lockstep R (record (.leave ((runStep settings' server step).run n).1))
        (record (.leave ((runStep settings' server step).run n).1)))
    (print : ∀ text, Lockstep R (print settings.verbose text).run (print settings'.verbose text).run)
    (setUpConsole : Lockstep R (setUpConsole settings.verbose).run (setUpConsole settings'.verbose).run) :
    Stepwise R settings settings' :=
  b.stepwise halts pauses entry leave print setUpConsole (fun hs => b.gate exit hs) (fun hs => b.terminate exit hs)
    fun hs => vmgexit exit hs .request

end Bare

namespace Plain

variable (p : Plain R) {settings settings' : Settings}

include p

/-- What steps keep, and what takes the next handler, whole runs keep. -/
theorem kept (k : Stepwise R settings settings') : Kept R settings settings' where
  toStepwise := k
  script := p.script
  nextHandler := p.nextHandler

/-- A relation that the console keeps, and every exit, is kept. -/
theorem kept_of_exit (halts : settings.halts = settings'.halts) (pauses : settings.pauses = settings'.pauses)
    (entry : settings.entry = settings'.entry)
    (exit : ∀ kind purpose shown,
      Lockstep R (record (.exit kind purpose shown)) (record (.exit kind purpose shown)))
    (leave : ∀ server step (n : Machine),
      Lockstep R (record (.leave ((runStep settings' server step).run n).1))
        (record (.leave ((runStep settings' server step).run n).1)))
    (print : ∀ text, Lockstep R (print settings.verbose text).run (print settings'.verbose text).run)
    (setUpConsole : Lockstep R (setUpConsole settings.verbose).run (setUpConsole settings'.verbose).run) :
    Kept R settings settings' :=
  p.kept (p.stepwise_of_exit halts pauses entry exit leave print setUpConsole)

end Plain

/-! ### The console -/

/-- What a relation owes to the instructions that the console is worked with. -/
structure Talking (R : Machine → Machine → Prop) : Prop where
  pausesLeft : ∀ {m n}, R m n → m.pausesLeft = n.pausesLeft
  console : ∀ {m n}, R m n → m.console = n.console
  setPauses : ∀ {m n} (pausesLeft : Nat), R m n → R { m with pausesLeft } { n with pausesLeft }
  setConsole : ∀ {m n} (f : TicketLock SerialPort → TicketLock SerialPort), R m n →
    R { m with console := f m.console } { n with console := f n.console }
  spin : Lockstep R (record .spin) (record .spin)
  note : ∀ event : Event, event.isNote → event.isTalk → Lockstep R (record event) (record event)
  portIn : ∀ port, Lockstep R (portIn port) (portIn port)
  portOut : ∀ port byte, Lockstep R (portOut port byte) (portOut port byte)

namespace Talking

variable (t : Talking R)

include t

theorem awaitTicket (ticket : UInt64) : ∀ count : Nat,
    Lockstep R (awaitTicket ticket count).run (awaitTicket ticket count).run
  | 0 => .pure (Except.error Stop.halted)
  | count + 1 => by
    refine .run_get_bind fun m n h => ?_
    rw [t.console h]
    by_cases hserving : n.console.isServing ticket = true
    · rw [if_pos hserving]
      exact ⟨rfl, h⟩
    · rw [if_neg hserving]
      exact Lockstep.run_bind (lockstep_pauseAs t.spin t.pausesLeft t.setPauses)
        (fun _ => awaitTicket ticket count) m n h

theorem lockConsole : Lockstep R lockConsole.run lockConsole.run := by
  have htake : Lockstep R
      (modifyGet fun m : Machine => (m.console.take.1, { m with console := m.console.take.2 }))
      (modifyGet fun m : Machine => (m.console.take.1, { m with console := m.console.take.2 })) :=
    fun m n h => ⟨congrArg (·.take.1) (t.console h), t.setConsole (·.take.2) h⟩
  refine .run_bind (.run_lift htake) fun ticket => .run_get_bind fun m n h => ?_
  rw [t.pausesLeft h]
  exact Lockstep.run_bind (t.awaitTicket ticket _) (fun _ => .run_lift (t.note .locked rfl rfl)) m n h

theorem withConsole {work work' : SerialPort → ExceptT Fault (StateM Machine) SerialPort}
    (hw : ∀ port, Lockstep R (work port).run (work' port).run) :
    Lockstep R (withConsole work).run (withConsole work').run := by
  refine .run_bind t.lockConsole fun _ => .run_get_bind fun m n h => ?_
  rw [t.console h]
  refine Lockstep.run_bind (lockstep_orStop (hw _)) (fun port => ?_) m n h
  refine .run_bind (.run_lift fun m n h => ⟨rfl, t.setConsole ({ · with value := port }) h⟩) fun _ => ?_
  exact .run_bind (.run_lift fun m n h => ⟨rfl, t.setConsole (·.release) h⟩) fun _ =>
    .run_lift (t.note .unlocked rfl rfl)

theorem write (port : SerialPort) (register : UInt16) (byte : UInt8) :
    Lockstep R (port.write ports register byte).run (port.write ports register byte).run := by
  rw [SerialPort.write]
  cases port.address register with
  | ok address => exact .run_lift (t.portOut address byte)
  | error fault => exact .pure (Except.error fault)

theorem read (port : SerialPort) (register : UInt16) :
    Lockstep R (port.read ports register).run (port.read ports register).run := by
  rw [SerialPort.read]
  cases port.address register with
  | ok address => exact .run_lift (t.portIn address)
  | error fault => exact .pure (Except.error fault)

theorem transmitAll (port : SerialPort) : ∀ bytes : List UInt8,
    Lockstep R (port.transmitAll ports bytes).run (port.transmitAll ports bytes).run
  | [] => .pure (Except.ok ())
  | byte :: bytes => .run_bind (t.write port _ byte) fun _ => transmitAll port bytes

theorem send (port : SerialPort) (bytes : List UInt8) :
    Lockstep R (port.send ports bytes).run (port.send ports bytes).run := by
  rw [SerialPort.send]
  cases port.ready with
  | true => exact t.transmitAll port bytes
  | false => exact .pure (Except.ok ())

theorem serialSetUp (port : SerialPort) :
    Lockstep R (port.setUp ports).run (port.setUp ports).run := by
  refine .run_bind (t.write _ _ _) fun _ => .run_bind (t.write _ _ _) fun _ => .run_bind (t.write _ _ _) fun _ => ?_
  refine .run_bind (t.write _ _ _) fun _ => .run_bind (t.read _ _) fun control => ?_
  refine .run_bind (t.write _ _ _) fun _ => .run_bind (t.write _ _ _) fun _ => .run_bind (t.write _ _ _) fun _ => ?_
  exact .run_bind (t.write _ _ _) fun _ => .pure (Except.ok _)

theorem print (verbose : Bool) (text : String) :
    Lockstep R (print verbose text).run (print verbose text).run := by
  rw [Machine.print]
  cases verbose with
  | true =>
    rw [if_pos rfl]
    exact t.withConsole fun port => .run_bind (.run_lift (t.note (.message _) rfl rfl)) fun _ =>
      .run_bind (t.send port _) fun _ => .pure (Except.ok port)
  | false =>
    rw [if_neg Bool.false_ne_true]
    exact .pure (Except.ok ())

theorem setUpConsole (verbose : Bool) :
    Lockstep R (setUpConsole verbose).run (setUpConsole verbose).run := by
  rw [Machine.setUpConsole]
  cases verbose with
  | true =>
    rw [if_pos rfl]
    exact t.withConsole fun port => .run_bind (t.serialSetUp port) fun port =>
      .run_bind (.run_lift (t.note .setUp rfl rfl)) fun _ => .pure (Except.ok port)
  | false =>
    rw [if_neg Bool.false_ne_true]
    exact .pure (Except.ok ())

end Talking

/-! ### All instructions -/

/-- What a relation owes to single instructions. -/
structure Instructions (R : Machine → Machine → Prop) : Prop where
  haltsLeft : ∀ {m n}, R m n → m.haltsLeft = n.haltsLeft
  pausesLeft : ∀ {m n}, R m n → m.pausesLeft = n.pausesLeft
  script : ∀ {m n}, R m n → m.script.length = n.script.length
  console : ∀ {m n}, R m n → m.console = n.console
  setHalts : ∀ {m n} (haltsLeft : Nat), R m n → R { m with haltsLeft } { n with haltsLeft }
  setPauses : ∀ {m n} (pausesLeft : Nat), R m n → R { m with pausesLeft } { n with pausesLeft }
  setConsole : ∀ {m n} (f : TicketLock SerialPort → TicketLock SerialPort), R m n →
    R { m with console := f m.console } { n with console := f n.console }
  note : ∀ event : Event, event.isNote → Lockstep R (record event) (record event)
  nextHandler : Lockstep R nextHandler nextHandler
  setSelector : ∀ selector, Lockstep R (setSelector selector) (setSelector selector)
  setMsr : ∀ msr value, Lockstep R (setMsr msr value) (setMsr msr value)
  readSelector : Lockstep R readSelector readSelector
  readMsr : ∀ msr, Lockstep R (readMsr msr) (readMsr msr)
  writeMsr : ∀ msr value, Lockstep R (writeMsr msr value) (writeMsr msr value)
  portIn : ∀ port, Lockstep R (portIn port) (portIn port)
  portOut : ∀ port byte, Lockstep R (portOut port byte) (portOut port byte)

namespace Instructions

variable (i : Instructions R)

include i

theorem plain : Plain R where
  haltsLeft := i.haltsLeft
  pausesLeft := i.pausesLeft
  script := i.script
  setHalts := i.setHalts
  setPauses := i.setPauses
  halted := i.note .halt rfl
  paused := i.note .pause rfl
  entered := i.note .enter rfl
  nextHandler := i.nextHandler
  setSelector := i.setSelector
  setMsr := i.setMsr
  readSelector := i.readSelector
  readMsr := i.readMsr
  writeMsr := i.writeMsr

theorem talking : Talking R where
  pausesLeft := i.pausesLeft
  console := i.console
  setPauses := i.setPauses
  setConsole := i.setConsole
  spin := i.note .spin rfl
  note event hnote _ := i.note event hnote
  portIn := i.portIn
  portOut := i.portOut

/-- What the code that leaves owes, for a relation that instructions keep. -/
theorem kept_of_leaving (settings : Settings)
    (gate : ∀ {server server'}, Companions R server server' → ∀ window regs,
      Lockstep R (gate server window regs) (gate server' window regs))
    (terminate : ∀ {server server'}, Companions R server server' → ∀ {α : Type} reasonSet reasonCode,
      Lockstep R (terminate server reasonSet reasonCode : Exec α).run
        (terminate server' reasonSet reasonCode : Exec α).run)
    (request : ∀ {server server'}, Companions R server server' →
      Lockstep R (vmgexit server .request) (vmgexit server' .request)) :
    Kept R settings settings :=
  i.plain.kept <| i.plain.stepwise rfl rfl rfl (fun _ _ _ => i.note (.leave _) rfl) (i.talking.print settings.verbose)
    (i.talking.setUpConsole settings.verbose) gate terminate request

/-- **Instructions that a relation is kept by are all that it takes.** -/
theorem kept (settings : Settings)
    (exit : ∀ kind purpose shown,
      Lockstep R (record (.exit kind purpose shown)) (record (.exit kind purpose shown))) :
    Kept R settings settings :=
  i.plain.kept_of_exit rfl rfl rfl exit (fun _ _ _ => i.note (.leave _) rfl) (i.talking.print settings.verbose)
    (i.talking.setUpConsole settings.verbose)

end Instructions

end Machine
end SyscallGate
