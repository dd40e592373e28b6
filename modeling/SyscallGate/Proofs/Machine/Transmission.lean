/-
# What is printed is what is sent

The bytes of a message and the bytes of the divisor go out by one port, and it
is the device at the other end that tells them apart. Told by the events of a
run what was printed and when the port was set up (`spoken`), one knows what the
device was given to transmit: exactly that (`transmitted_as_spoken`). Whenever a
talk is over the divisor is out of the way, so the next talk finds the device as
it needs it (`Told.device`).

Key definitions: `Machine.writes`, `Machine.spoken`, `Machine.OfFirstLine`.
Key theorems: `Uart.writeAll_transmit`, `Uart.writeAll_setUp`,
`Machine.Told.device`, `Machine.Told.device_setUp`, `Machine.Told.ofFirstLine`,
`Machine.transmitted_as_spoken`.
-/
import SyscallGate.Proofs.Machine.Muted
import SyscallGate.Proofs.Machine.Sayings
import SyscallGate.Serial.Uart

namespace SyscallGate

/-! ### The device -/

namespace Uart

theorem writeAll_append (base : UInt16) (uart : Uart) (writes more : List (UInt16 × UInt8)) :
    uart.writeAll base (writes ++ more) = (uart.writeAll base writes).writeAll base more := List.foldl_append

theorem writeAll_cons (offset : Nat) {port : UInt16} (hport : port.toNat = 0x3f8 + offset) (uart : Uart) (byte : UInt8)
    (more : List (UInt16 × UInt8)) : uart.writeAll SerialPort.firstLine ((port, byte) :: more) =
      (uart.write offset byte).writeAll SerialPort.firstLine more := by
  have hfirst : SerialPort.firstLine.toNat = 0x3f8 := rfl
  have hle : SerialPort.firstLine ≤ port := UInt16.le_iff_toNat_le.mpr (by omega)
  have hoffset : port.toNat - SerialPort.firstLine.toNat = offset := by omega
  have hstep : uart.writeAll SerialPort.firstLine ((port, byte) :: more) =
      (if SerialPort.firstLine ≤ port then uart.write (port.toNat - SerialPort.firstLine.toNat) byte
        else uart).writeAll SerialPort.firstLine more := rfl
  rw [hstep, if_pos hle, hoffset]

section Write

variable {uart : Uart} (byte : UInt8)

theorem write_transmit (h : uart.divisorAccess = false) :
    uart.write 0 byte = { uart with transmitted := uart.transmitted ++ [byte] } := by
  rw [write, h, if_neg Bool.false_ne_true]

theorem write_interrupts (h : uart.divisorAccess = false) : uart.write 1 byte = { uart with interrupts := byte } := by
  rw [write, h, if_neg Bool.false_ne_true]

theorem write_divisorLow (h : uart.divisorAccess = true) : uart.write 0 byte = { uart with divisorLow := byte } := by
  rw [write, if_pos h]

theorem write_divisorHigh (h : uart.divisorAccess = true) : uart.write 1 byte = { uart with divisorHigh := byte } := by
  rw [write, if_pos h]

end Write

theorem writeAll_transmit : ∀ (bytes : List UInt8) {uart : Uart}, uart.divisorAccess = false →
    uart.writeAll SerialPort.firstLine (bytes.map (SerialPort.firstLine, ·)) =
      { uart with transmitted := uart.transmitted ++ bytes }
  | [], uart, _ => by rw [List.append_nil]; rfl
  | byte :: bytes, uart, h => by
    have hclear : ({ uart with transmitted := uart.transmitted ++ [byte] } : Uart).divisorAccess = false := h
    rw [List.map_cons, writeAll_cons 0 rfl, write_transmit byte h, writeAll_transmit bytes hclear, List.append_assoc]
    rfl

theorem divisorAccess_eightBits {uart : Uart} (h : uart.lineControl = 3) : uart.divisorAccess = false := by
  rw [divisorAccess, h]
  decide

theorem divisorAccess_opened {uart : Uart} (h : uart.lineControl = 3 ||| 0x80) : uart.divisorAccess = true := by
  rw [divisorAccess, h]
  decide

/-- Setting the port up leaves eight bits, no parity, one stop bit and a divisor
of one, and transmits nothing. -/
theorem writeAll_setUp {uart : Uart} (h : uart.divisorAccess = false) :
    uart.writeAll SerialPort.firstLine (Machine.setUpBegin ++ Machine.setUpEnd 3) =
      { uart with interrupts := 0, lineControl := 3, divisorLow := 1, divisorHigh := 0 } := by
  rw [Machine.setUpBegin, Machine.setUpEnd, List.cons_append, List.cons_append, List.cons_append, List.cons_append,
    List.nil_append, writeAll_cons 1 rfl, writeAll_cons 2 rfl, writeAll_cons 3 rfl, writeAll_cons 4 rfl,
    writeAll_cons 3 rfl]
  -- from here to the line control as it was, the divisor is in place
  rw [write_interrupts 0 h, writeAll_cons 0 rfl, write_divisorLow 1 (divisorAccess_opened rfl),
    writeAll_cons 1 rfl, write_divisorHigh 0 (divisorAccess_opened rfl), writeAll_cons 3 rfl]
  rfl

end Uart

namespace Machine

/-- The byte that an event puts out, and its port. -/
def Event.write? : Event → Option (UInt16 × UInt8)
  | output port byte => some (port, byte)
  | _ => none

/-- The bytes that events put out, with their ports. -/
def writes (events : List Event) : List (UInt16 × UInt8) := events.filterMap Event.write?

theorem writes_append (events later : List Event) : writes (events ++ later) = writes events ++ writes later :=
  List.filterMap_append

theorem writes_outputs (all : List (UInt16 × UInt8)) : writes (outputs all) = all := by
  rw [writes, outputs, List.filterMap_map]
  exact List.filterMap_some

theorem writes_messageTalk (ready : Bool) (bytes : List UInt8) :
    writes (messageTalk ready bytes) = if ready then bytes.map (SerialPort.firstLine, ·) else [] := by
  have hbegin (more : List Event) : writes (.locked :: .message bytes :: more) = writes more := rfl
  rw [messageTalk, writes_append, hbegin, writes_outputs]
  exact List.append_nil _

/-- The bytes of the messages that were printed while the port was set up, if it
was at first or not. -/
def spoken (ready : Bool) : List Event → List UInt8
  | [] => []
  | .message bytes :: later => (if ready then bytes else []) ++ spoken ready later
  | .setUp :: later => spoken true later
  | _ :: later => spoken ready later

theorem spoken_regular {event : Event} (h : event.isRegular) (ready : Bool) (later : List Event) :
    spoken ready (event :: later) = spoken ready later := by
  cases event <;> first | rfl | cases h

theorem spoken_outputs (ready : Bool) (later : List Event) : ∀ all : List (UInt16 × UInt8),
    spoken ready (outputs all ++ later) = spoken ready later
  | [] => rfl
  | _ :: all => spoken_outputs ready later all

theorem spoken_messageTalk (ready : Bool) (bytes : List UInt8) (later : List Event) :
    spoken ready (messageTalk ready bytes ++ later) = (if ready then bytes else []) ++ spoken ready later := by
  have hbegin (more : List Event) : spoken ready (.locked :: .message bytes :: more) =
      (if ready then bytes else []) ++ spoken ready more := rfl
  rw [messageTalk, List.append_assoc, List.cons_append, List.cons_append, hbegin, spoken_outputs]
  rfl

/-! ### Runs -/

namespace Told

variable {answers : UInt8 → Prop} {ready now : Bool} {events before later : List Event}

theorem spoken_append (h : Told answers ready events now) (later : List Event) :
    spoken ready (events ++ later) = spoken ready events ++ spoken now later := by
  induction h with
  | nothing => rfl
  | event hregular _ ih => rw [List.cons_append, spoken_regular hregular, spoken_regular hregular, ih]
  | talk htalk _ ih =>
    rw [List.append_assoc]
    cases htalk with
    | message bytes => rw [spoken_messageTalk, spoken_messageTalk, ih, List.append_assoc]
    | setUp _ => exact ih

/-- **After every talk the divisor is out of the way**, and the messages printed
so far were transmitted. -/
theorem device (h : Told (· = 3) ready events now) : ∀ {uart : Uart}, uart.divisorAccess = false →
    (uart.writeAll SerialPort.firstLine (writes events)).divisorAccess = false ∧
      (uart.writeAll SerialPort.firstLine (writes events)).transmitted = uart.transmitted ++ spoken ready events := by
  induction h with
  | nothing => exact fun hclear => ⟨hclear, (List.append_nil _).symm⟩
  | @event _ _ event later hregular _ ih =>
    intro uart hclear
    have hwrites : writes (event :: later) = writes later := by
      cases event <;> first | rfl | cases hregular
    rw [hwrites, spoken_regular hregular]
    exact ih hclear
  | @talk ready _ _ _ _ htalk _ ih =>
    intro uart hclear
    rw [writes_append, Uart.writeAll_append]
    cases htalk with
    | message bytes =>
      rw [writes_messageTalk, spoken_messageTalk]
      cases ready with
      | false => exact ih hclear
      | true =>
        rw [if_pos rfl, if_pos rfl, Uart.writeAll_transmit bytes hclear, ← List.append_assoc]
        exact ih hclear
    | setUp hcontrol =>
      subst hcontrol
      have hset : writes (setUpTalk 3) = setUpBegin ++ setUpEnd 3 := rfl
      rw [hset, Uart.writeAll_setUp hclear]
      exact ih (Uart.divisorAccess_eightBits rfl)

/-- When the port was just set up, the device is as it was asked to be, and
nothing but messages was transmitted. -/
theorem device_setUp (h : Told (· = 3) ready events now) {uart : Uart} (hclear : uart.divisorAccess = false)
    (hevents : events = before ++ .setUp :: later) :
    let device := uart.writeAll SerialPort.firstLine (writes before)
    device.lineControl = 3 ∧ device.divisorLow = 1 ∧ device.divisorHigh = 0 ∧
      device.transmitted = uart.transmitted ++ spoken ready before := by
  intro device
  obtain ⟨prior, between, control, hprior, rfl, rfl⟩ := h.setUp_at hevents
  obtain ⟨hout, hsent⟩ := hprior.device hclear
  have hset : writes (.locked :: outputs setUpBegin ++ .input 0x3fb 3 :: outputs (setUpEnd 3)) =
      setUpBegin ++ setUpEnd 3 := rfl
  have hdevice : device = { uart.writeAll SerialPort.firstLine (writes prior) with
      interrupts := 0, lineControl := 3, divisorLow := 1, divisorHigh := 0 } := by
    rw [← Uart.writeAll_setUp hout, ← hset, ← Uart.writeAll_append, ← writes_append]
  have hnone : spoken between (.locked :: outputs setUpBegin ++ .input 0x3fb 3 :: outputs (setUpEnd 3)) = [] := rfl
  rw [hdevice, hprior.spoken_append, hnone, List.append_nil]
  exact ⟨rfl, rfl, rfl, hsent⟩

end Told

/-! ### Ports -/

/-- The port that an event is of. -/
def Event.port? : Event → Option UInt16
  | input port _ | output port _ => some port
  | _ => none

/-- Whether a port belongs to the first line. -/
def OfFirstLine (port : UInt16) : Prop := 0x3f8 ≤ port ∧ port ≤ 0x3fc

instance (port : UInt16) : Decidable (OfFirstLine port) := inferInstanceAs (Decidable (_ ∧ _))

theorem ofFirstLine_outputs {all : List (UInt16 × UInt8)} (h : ∀ write ∈ all, OfFirstLine write.1)
    {event : Event} (hevent : event ∈ outputs all) {port : UInt16} (hport : event.port? = some port) :
    OfFirstLine port := by
  obtain ⟨write, hwrite, rfl⟩ := List.mem_map.mp hevent
  obtain rfl := Option.some.inj hport
  exact h write hwrite

theorem Talk.ofFirstLine {answers : UInt8 → Prop} {ready now : Bool} {talk : List Event}
    (h : Talk answers ready talk now) {event : Event} (hevent : event ∈ talk) {port : UInt16}
    (hport : event.port? = some port) : OfFirstLine port := by
  have hfirst : OfFirstLine SerialPort.firstLine := by decide
  cases h with
  | message bytes =>
    simp only [messageTalk, List.cons_append, List.mem_cons, List.mem_append, List.not_mem_nil, or_false] at hevent
    obtain rfl | rfl | hbytes | rfl := hevent
    · cases hport
    · cases hport
    · refine ofFirstLine_outputs (fun write hwrite => ?_) hbytes hport
      cases ready with
      | false => cases hwrite
      | true =>
        obtain ⟨byte, -, rfl⟩ := List.mem_map.mp hwrite
        exact hfirst
    · cases hport
  | @setUp control _ =>
    have hbegin : ∀ write ∈ setUpBegin, OfFirstLine write.1 := by simp [setUpBegin, OfFirstLine]
    have hend : ∀ write ∈ setUpEnd control, OfFirstLine write.1 := by simp [setUpEnd, OfFirstLine]
    simp only [setUpTalk, List.cons_append, List.mem_cons, List.mem_append, List.not_mem_nil, or_false] at hevent
    obtain rfl | (hin | rfl | hin) | rfl | rfl := hevent
    · cases hport
    · exact ofFirstLine_outputs hbegin hin hport
    · obtain rfl := Option.some.inj hport
      decide
    · exact ofFirstLine_outputs hend hin hport
    · cases hport
    · cases hport

/-- **No other port is touched.** -/
theorem Told.ofFirstLine {answers : UInt8 → Prop} {ready now : Bool} {events : List Event}
    (h : Told answers ready events now) {event : Event} (hevent : event ∈ events) {port : UInt16}
    (hport : event.port? = some port) : OfFirstLine port := by
  obtain ⟨before, later, hevents⟩ := List.append_of_mem hevent
  have htalk : event.isTalk := by cases event <;> first | rfl | cases hport
  obtain ⟨_, _, talk, _, begun, left, _, _, hin, hsplit, _, _⟩ := h.talk_at htalk hevents
  exact hin.ofFirstLine (by simp [hsplit]) hport

theorem Told.faultless {answers : UInt8 → Prop} {ready now : Bool} {events : List Event}
    (h : Told answers ready events now) {report : Report} (hreport : ∀ event ∈ report.events, event ∈ events)
    (hresult : report.result.isFault = false) : report.fault? = none := by
  rw [Report.fault?]
  split
  · rename_i fault hstopped
    rw [hstopped] at hresult
    cases hresult
  · refine List.findSome?_eq_none_iff.mpr fun event hevent => ?_
    split
    · rename_i fault
      obtain ⟨before, later, hall⟩ := List.append_of_mem (hreport _ hevent)
      obtain ⟨-, -, hregular⟩ := h.regular_at rfl hall
      cases hregular
    · rfl

/-! ### What is sent -/

theorem runStep_portWrite (settings : Settings) (server : Server) (base : UInt16) (text : String) (m : Machine) :
    (runStep settings server (.portWrite base text)).run m = (.written true, m) := by
  have hcode (m : Machine) : (carryOut settings server (.portWrite base text)).run.run m =
      (.ok (.written true), m) := rfl
  rw [runStep_run, hcode]
  rfl

/-- **What is printed is what is sent.** A run of any steps, from any start at
which a port that is read answers with what was last written to it, writes to a
device whose divisor is out of the way. The device is given the bytes of the
messages that are printed while the port is set up, in that order, and no other.
It has been given those of the messages so far, with the divisor out of the way,
at every event that is of no talk and where a talk begins. The bytes of a
message follow it one by one, up to the end of its talk. Where the port was just
set up, the line has eight bits, no parity, one stop bit and a divisor of one,
and nothing but messages was transmitted. Only ports of the first line are
touched, there is no fault, and a port that was never set up is written nothing
to. What a step says for itself, on a console at rest, is what it was to say. -/
theorem transmitted_as_spoken (halts pauses : Nat) (entry : UInt64) (selector : UInt16) (msrs : List (UInt32 × UInt64))
    (serialReady : Bool) (script : List (List Action)) (steps : List Step) (uart : Uart)
    (hclear : uart.divisorAccess = false) :
    let settings : Settings := ⟨true, halts, pauses, entry⟩
    let m := start settings selector msrs [] serialReady script
    let events := (run settings m steps).flatMap (·.events)
    let device (sofar : List Event) : Uart := uart.writeAll SerialPort.firstLine (writes sofar)
    (device events).transmitted = uart.transmitted ++ spoken serialReady events ∧
      (∀ before event later, events = before ++ event :: later → event.isTalk = false ∨ event = .locked →
        (device before).divisorAccess = false ∧
          (device before).transmitted = uart.transmitted ++ spoken serialReady before) ∧
      (∀ before bytes later, events = before ++ .message bytes :: later → ∃ rest,
        later = outputs (if (replayConsole m.console before).value.ready
          then bytes.map (SerialPort.firstLine, ·) else []) ++ .unlocked :: rest) ∧
      (∀ before later, events = before ++ .setUp :: later →
        (device before).lineControl = 3 ∧ (device before).divisorLow = 1 ∧ (device before).divisorHigh = 0 ∧
          (device before).transmitted = uart.transmitted ++ spoken serialReady before) ∧
      (∀ event ∈ events, ∀ port, event.port? = some port → 0x3f8 ≤ port ∧ port ≤ 0x3fc) ∧
      (∀ report ∈ run settings m steps, report.fault? = none) ∧
      (∀ server base text inner,
        (runStep settings server (.portWrite base text)).run inner = (.written true, inner)) ∧
      ∀ depth step inner, AtRest inner.console →
        sayings (own (since inner.history ((runStep settings (serve settings depth) step).run inner).2.history)) =
          step.sayings entry inner.msrs := by
  intro settings m events device
  have hrest : AtRest m.console := ⟨rfl, rfl⟩
  -- whenever the line control is asked for, it is answered with what was just put there
  let answers : UInt8 → Prop := (· = 3)
  have hanswer : answers SerialPort.eightBits := rfl
  have hstart : Counterpart answers m [] m m := .refl hrest (List.forall_mem_nil _)
  obtain ⟨-, hfine, hlast⟩ := reports_counterpart settings hanswer steps hstart
  have htold : Told (· = 3) serialReady events ((reports settings steps).run m).2.console.value.ready := hlast.told
  refine ⟨(htold.device hclear).2, ?between, ?message, ?setUp, ?ports, ?faults,
    runStep_portWrite settings, fun depth step inner hinner => runStep_sayings settings rfl depth step hinner⟩
  case between =>
    intro before event later hevents hevent
    obtain ⟨between, hbefore⟩ : ∃ between, Told (· = 3) serialReady before between := by
      rcases hevent with hregular | rfl
      · obtain ⟨between, hbefore, -⟩ := htold.regular_at hregular hevents
        exact ⟨between, hbefore⟩
      · exact htold.locked_at hevents
    exact hbefore.device hclear
  case message =>
    intro before bytes later hevents
    obtain ⟨prior, between, rest, hprior, rfl, hlater⟩ := htold.message_at hevents
    have hready : (replayConsole m.console (prior ++ [.locked])).value.ready = between := by
      rw [replayConsole_append]
      exact (hprior.atRest hrest rfl).2
    rw [hready]
    exact ⟨rest, hlater⟩
  case setUp => exact fun before later hevents => htold.device_setUp hclear hevents
  case ports => exact fun event hevent port hport => htold.ofFirstLine hevent hport
  case faults =>
    intro report hreport
    have hwithin : ∀ event ∈ report.events, event ∈ events := fun event hevent =>
      List.mem_flatMap.mpr ⟨report, hreport, hevent⟩
    exact htold.faultless hwithin (hfine report hreport)

/-- A message that comes too early, then a call whose handler sets the port up, and
a message after that, of which alone the bytes are sent. -/
theorem transmitted_as_spoken_once_set_up :
    let uart : Uart := ⟨0, 0, 0, 0, []⟩
    let settings : Settings := ⟨true, 1, 1, 0x400000⟩
    let m := start settings 0x10 [] [] false [[.run .serialSetUp]]
    let events := (run settings m [.print "early", .vmgexit, .print "late"]).flatMap (·.events)
    uart.divisorAccess = false ∧
      (uart.writeAll SerialPort.firstLine (writes events)).transmitted = [108, 97, 116, 101] := by
  intro uart settings m events
  have hclear : uart.divisorAccess = false := by decide
  have hspoken : uart.transmitted ++ spoken false events = [108, 97, 116, 101] := by decide +kernel
  obtain ⟨hsent, -⟩ := transmitted_as_spoken 1 1 0x400000 0x10 [] false [[.run .serialSetUp]]
    [.print "early", .vmgexit, .print "late"] uart hclear
  rw [hspoken] at hsent
  exact ⟨hclear, hsent⟩

end Machine
end SyscallGate
