/-
# Talking to the console

Nobody holds the console's lock between two talks to it, and its port is the
first line: the console is at rest (`AtRest`). Then the lock is granted at once,
a talk is what its code says, with nothing in between, and the console is at
rest again after it (`print_run`, `setUpConsole_run`). A message is
talked as `messageTalk`, and the console is set up as `setUpTalk`.

Key definitions: `Machine.AtRest`, `Machine.messageTalk`, `Machine.setUpTalk`.
Key theorems: `Machine.lockConsole_run`, `Machine.withConsole_run`,
`Machine.print_run`, `Machine.setUpConsole_run`.
-/
import SyscallGate.Proofs.Machine.Gate

namespace SyscallGate

section Stops

variable {σ ε α β : Type} {s t : σ} {x : ExceptT ε (StateM σ) α} {f : α → ExceptT ε (StateM σ) β}

theorem run_bind_ok {a : α} (h : x.run.run s = (.ok a, t)) : (x >>= f).run.run s = (f a).run.run t := by
  rw [ExceptT.run_bind, StateT.run_bind, h]
  rfl

theorem run_bind_error {stop : ε} (h : x.run.run s = (.error stop, t)) :
    (x >>= f).run.run s = (.error stop, t) := by
  rw [ExceptT.run_bind, StateT.run_bind, h]
  rfl

end Stops

namespace Machine

/-! ### The lock -/

/-- A console that nobody talks to: its lock is free, and its port is the first
line. -/
structure AtRest (console : TicketLock SerialPort) : Prop where
  free : console.isFree = true
  base : console.value.base = SerialPort.firstLine

/-- The lock after somebody took it, left a port behind and gave it up. -/
def passed (console : TicketLock SerialPort) (port : SerialPort) : TicketLock SerialPort :=
  TicketLock.release { console.take.2 with value := port }

theorem AtRest.passed {console : TicketLock SerialPort} (h : AtRest console) {port : SerialPort}
    (hbase : port.base = console.value.base) : AtRest (passed console port) where
  free := by
    have hfree : console.nowServing = console.nextTicket := by simpa [TicketLock.isFree] using h.free
    simp [TicketLock.isFree, Machine.passed, TicketLock.release, TicketLock.take, hfree]
  base := hbase.trans h.base

/-- The machine while the lock of its console is held. -/
def holding (m : Machine) : Machine :=
  ({ m with console := m.console.take.2 } : Machine).recording .locked

theorem lockConsole_run {m : Machine} (h : m.console.isFree = true) :
    lockConsole.run.run m = (.ok (), m.holding) := by
  have hserved : ({ m with console := m.console.take.2 } : Machine).console.isServing m.console.take.1 = true := h
  have hgranted : (awaitTicket m.console.take.1 (m.pausesLeft + 1)).run.run { m with console := m.console.take.2 } =
      (.ok (), { m with console := m.console.take.2 }) := by
    change StateT.run (ExceptT.run (if ({ m with console := m.console.take.2 } : Machine).console.isServing
      m.console.take.1 = true then _ else _)) _ = _
    rw [if_pos hserved]
    rfl
  have hrun : lockConsole.run.run m =
      (do awaitTicket m.console.take.1 (m.pausesLeft + 1); record .locked : Exec Unit).run.run
        { m with console := m.console.take.2 } := rfl
  rw [hrun, run_bind_ok hgranted]
  rfl

theorem withConsole_run {m after : Machine} {port : SerialPort}
    {work : SerialPort → ExceptT Fault (StateM Machine) SerialPort} (h : m.console.isFree = true)
    (hwork : (work m.console.value).run.run m.holding = (.ok port, after)) :
    (withConsole work).run.run m =
      (.ok (), ({ after with console := TicketLock.release { after.console with value := port } } :
        Machine).recording .unlocked) := by
  have hdone : (orStop (work m.holding.console.value)).run.run m.holding = (.ok port, after) := by
    have hvalue : m.holding.console.value = m.console.value := rfl
    rw [hvalue, orStop, ExceptT.run_mk, StateT.run_bind, hwork]
    rfl
  rw [withConsole, run_bind_ok (lockConsole_run h)]
  exact run_bind_ok hdone

/-! ### The port -/

/-- The machine after a byte was put out. -/
def put (m : Machine) (write : UInt16 × UInt8) : Machine :=
  { m.recording (.output write.1 write.2) with written := assign m.written write.1 write.2 }

/-- The machine after bytes were put out, in order. -/
def putAll (m : Machine) (writes : List (UInt16 × UInt8)) : Machine := writes.foldl put m

/-- The events of bytes that are put out. -/
def outputs (writes : List (UInt16 × UInt8)) : List Event :=
  writes.map fun (port, byte) => .output port byte

/-- Nothing else happens while bytes are put out. -/
theorem putAll_eq : ∀ (writes : List (UInt16 × UInt8)) (m : Machine), ∃ written,
    m.putAll writes = { m with written, history := (outputs writes).reverse ++ m.history }
  | [], m => ⟨m.written, rfl⟩
  | write :: writes, m => by
    obtain ⟨written, h⟩ := putAll_eq writes (m.put write)
    refine ⟨written, ?_⟩
    have hfirst : outputs (write :: writes) = .output write.1 write.2 :: outputs writes := rfl
    rw [putAll, List.foldl_cons, ← putAll, h, hfirst, List.reverse_cons, List.append_assoc]
    rfl

theorem written_putAll {port : UInt16} : ∀ (writes : List (UInt16 × UInt8)) (m : Machine),
    (∀ write ∈ writes, write.1 ≠ port) → (m.putAll writes).written port = m.written port
  | [], _, _ => rfl
  | write :: writes, m, h => by
    obtain ⟨hfirst, hrest⟩ := List.forall_mem_cons.mp h
    exact (written_putAll writes (m.put write) hrest).trans (assign_other m.written write.2 hfirst.symm)

section Port

variable {port : SerialPort} (hbase : port.base = SerialPort.firstLine)

include hbase

theorem address_firstLine {register : UInt16} (hregister : register ≤ SerialPort.modemControl) :
    port.address register = .ok (SerialPort.firstLine + register) := by
  have hle : register.toNat ≤ 4 := hregister
  have hfirst : SerialPort.firstLine.toNat = 0x3f8 := rfl
  have hsize : UInt16.size = 65536 := rfl
  rw [SerialPort.address, hbase, if_pos (by omega)]

theorem write_run {register : UInt16} (hregister : register ≤ SerialPort.modemControl) (byte : UInt8)
    (m : Machine) :
    (port.write ports register byte).run.run m = (.ok (), m.put (SerialPort.firstLine + register, byte)) := by
  rw [SerialPort.write, address_firstLine hbase hregister]
  rfl

theorem transmitAll_run : ∀ (bytes : List UInt8) (m : Machine),
    (port.transmitAll ports bytes).run.run m = (.ok (), m.putAll (bytes.map (SerialPort.firstLine, ·)))
  | [], _ => rfl
  | byte :: bytes, m => by
    rw [SerialPort.transmitAll, run_bind_ok (write_run hbase (by decide) byte m)]
    exact transmitAll_run bytes _

theorem send_run (bytes : List UInt8) (m : Machine) : (port.send ports bytes).run.run m =
    (.ok (), m.putAll (if port.ready then bytes.map (SerialPort.firstLine, ·) else [])) := by
  rw [SerialPort.send]
  cases port.ready with
  | true => exact transmitAll_run hbase bytes m
  | false => rfl

omit hbase in
/-- IN finds a byte of the input, or the one last put out there. -/
theorem portIn_run (address : UInt16) (m : Machine) : ∃ byte input,
    (portIn address).run m = (byte, ({ m with input } : Machine).recording (.input address byte)) ∧
      ∀ b ∈ byte :: input, b = m.written address ∨ b ∈ m.input := by
  obtain ⟨selector, msrs, input, written, console, script, haltsLeft, pausesLeft, history⟩ := m
  cases input with
  | nil => exact ⟨written address, [], rfl, by simp⟩
  | cons byte input => exact ⟨byte, input, rfl, fun b hb => .inr hb⟩

/-- What is put out to set the port up, until the line control is asked for. -/
def setUpBegin : List (UInt16 × UInt8) := [(0x3f9, 0), (0x3fa, 0), (0x3fb, 3), (0x3fc, 3)]

/-- And after it: the divisor, and the line control as it was. -/
def setUpEnd (control : UInt8) : List (UInt16 × UInt8) :=
  [(0x3fb, control ||| 0x80), (0x3f8, 1), (0x3f9, 0), (0x3fb, control)]

theorem setUp_run (m : Machine) : ∃ control input,
    (port.setUp ports).run.run m = (.ok { port with ready := true },
      (({ m.putAll setUpBegin with input } : Machine).recording (.input 0x3fb control)).putAll (setUpEnd control)) ∧
    ∀ byte ∈ control :: input, byte = 3 ∨ byte ∈ m.input := by
  obtain ⟨control, input, hread, hfound⟩ := portIn_run 0x3fb (m.putAll setUpBegin)
  -- the line control was put out just before it is asked for
  have hlast : (m.putAll setUpBegin).written 0x3fb = 3 := by
    simp [setUpBegin, putAll, put, assign]
  have hinput : (m.putAll setUpBegin).input = m.input := by
    obtain ⟨written, hput⟩ := putAll_eq setUpBegin m
    rw [hput]
  rw [hlast, hinput] at hfound
  refine ⟨control, input, ?_, hfound⟩
  have hwrite {register : UInt16} (hregister : register ≤ SerialPort.modemControl) (byte : UInt8) (m : Machine) :=
    write_run hbase hregister byte m
  have hasked : (port.read ports SerialPort.lineControl).run.run (m.putAll setUpBegin) =
      (.ok control, ({ m.putAll setUpBegin with input } : Machine).recording (.input 0x3fb control)) := by
    rw [SerialPort.read, address_firstLine hbase (by decide)]
    change (Except.ok <$> portIn 0x3fb).run _ = _
    rw [StateT.run_map, hread]
    rfl
  rw [SerialPort.setUp, run_bind_ok (hwrite (by decide) _ _), run_bind_ok (hwrite (by decide) _ _),
    run_bind_ok (hwrite (by decide) _ _), run_bind_ok (hwrite (by decide) _ _)]
  refine (run_bind_ok hasked).trans ?_
  rw [run_bind_ok (hwrite (by decide) _ _), run_bind_ok (hwrite (by decide) _ _),
    run_bind_ok (hwrite (by decide) _ _), run_bind_ok (hwrite (by decide) _ _)]
  rfl

end Port

/-! ### Talks -/

/-- How a message is talked: its bytes go out one after another, if the port was
set up. -/
def messageTalk (ready : Bool) (bytes : List UInt8) : List Event :=
  .locked :: .message bytes :: outputs (if ready then bytes.map (SerialPort.firstLine, ·) else []) ++ [.unlocked]

/-- How the console is set up, when its line control is answered with `control`. -/
def setUpTalk (control : UInt8) : List Event :=
  .locked :: outputs setUpBegin ++ .input 0x3fb control :: outputs (setUpEnd control) ++ [.setUp, .unlocked]

/-- **A message is talked at once, and the console is at rest again.** Its bytes go
to one port. -/
theorem print_run {m : Machine} (h : AtRest m.console) (text : String) : ∃ written,
    (∀ port, port ≠ SerialPort.firstLine → written port = m.written port) ∧ (print true text).run.run m = (.ok (),
      { m with
        written
        console := passed m.console m.console.value
        history := (messageTalk m.console.value.ready (textBytes text)).reverse ++ m.history }) := by
  let bytes := textBytes text
  obtain ⟨written, hput⟩ := putAll_eq (if m.console.value.ready then bytes.map (SerialPort.firstLine, ·) else [])
    (m.holding.recording (.message bytes))
  have hsent := send_run h.base bytes (m.holding.recording (.message bytes))
  refine ⟨written, fun port hport => ?_, ?_⟩
  · have hother : ∀ write ∈ (if m.console.value.ready then bytes.map (SerialPort.firstLine, ·) else []),
        write.1 ≠ port := by
      intro write hwrite
      split at hwrite
      · obtain ⟨byte, -, rfl⟩ := List.mem_map.mp hwrite
        exact hport.symm
      · cases hwrite
    have hkept := written_putAll _ (m.holding.recording (.message bytes)) hother
    rw [hput] at hkept
    exact hkept
  · rw [hput] at hsent
    rw [print, if_pos rfl, withConsole_run h.free (run_bind_ok hsent)]
    simp only [messageTalk, List.cons_append, List.reverse_cons, List.reverse_append, List.append_assoc]
    rfl

/-- **The console is set up at once, and at rest again.** Its line control is
answered with what was just put there, or with a byte of the input. -/
theorem setUpConsole_run {m : Machine} (h : AtRest m.console) : ∃ control input written,
    (setUpConsole true).run.run m = (.ok (),
      { m with
        input
        written
        console := passed m.console { m.console.value with ready := true }
        history := (setUpTalk control).reverse ++ m.history }) ∧
    ∀ byte ∈ control :: input, byte = 3 ∨ byte ∈ m.input := by
  obtain ⟨control, input, hset, hfound⟩ := setUp_run h.base m.holding
  obtain ⟨begun, hbegin⟩ := putAll_eq setUpBegin m.holding
  obtain ⟨written, hend⟩ := putAll_eq (setUpEnd control)
    (({ m.holding.putAll setUpBegin with input } : Machine).recording (.input 0x3fb control))
  refine ⟨control, input, written, ?_, hfound⟩
  rw [hend, hbegin] at hset
  rw [setUpConsole, if_pos rfl, withConsole_run h.free (run_bind_ok hset)]
  simp only [setUpTalk, List.cons_append, List.reverse_cons, List.reverse_append, List.append_assoc]
  rfl

end Machine
end SyscallGate
