/-
# What decides where a byte goes

Setting the port up asks the device for its line control, opens the divisor, and
puts the answer back as it is. So whenever nobody talks, what was last put into
the line control is what the device last answered (`Told.restored`), whatever that
was. A byte of a message that follows is transmitted if bit 7 of the answer is
clear; else it lands in the divisor, although the port counts as set up
(`sent_as_answered`). With a device that answers with what it was given no byte is
lost that way.

Key definitions: `Machine.Event.put?`, `Machine.Event.got?`,
`Machine.NextOfMessage`.
Key theorems: `Machine.lineControl_writeAll`, `Machine.Told.restored`,
`Machine.Told.next_at`, `Machine.Told.output_at`, `Machine.writeAll_sent`,
`Machine.sent_as_answered`.
-/
import SyscallGate.Proofs.Machine.Transmission

namespace SyscallGate
namespace Machine

/-! ### The line control -/

/-- The byte that an event puts out at a port. -/
def Event.put? (port : UInt16) : Event → Option UInt8
  | output there byte => if there = port then some byte else none
  | _ => none

/-- The byte that an event gets from a port. -/
def Event.got? (port : UInt16) : Event → Option UInt8
  | input there byte => if there = port then some byte else none
  | _ => none

theorem lineControl_write (uart : Uart) (offset : Nat) (byte : UInt8) :
    (uart.write offset byte).lineControl = if offset = 3 then byte else uart.lineControl := by
  unfold Uart.write
  split
  · split <;> rfl
  · split <;> rfl
  · rfl
  · rw [if_neg ‹_›]

theorem lineControl_writeAll_single (event : Event) (uart : Uart) :
    (uart.writeAll SerialPort.firstLine (writes [event])).lineControl =
      (event.put? 0x3fb).getD uart.lineControl := by
  cases event with
  | output port byte =>
    have hwrite : uart.writeAll SerialPort.firstLine (writes [.output port byte]) =
        if SerialPort.firstLine ≤ port then uart.write (port.toNat - SerialPort.firstLine.toNat) byte else uart := rfl
    have hfirst : SerialPort.firstLine.toNat = 0x3f8 := rfl
    rw [hwrite, Event.put?]
    by_cases hport : port = 0x3fb
    · subst hport
      rfl
    · have hoffset : port.toNat ≠ 0x3fb := fun h => hport (UInt16.toNat_inj.mp h)
      rw [if_neg hport, Option.getD_none]
      split
      · rw [lineControl_write, if_neg (by omega)]
      · rfl
  | _ => rfl

/-- **The line control is what was last put there**, and without that it is what it
was. -/
theorem lineControl_writeAll : ∀ (events : List Event) (uart : Uart),
    (uart.writeAll SerialPort.firstLine (writes events)).lineControl =
      (lastOf (Event.put? 0x3fb) events).getD uart.lineControl
  | [], _ => rfl
  | event :: later, uart => by
    rw [← List.singleton_append, writes_append, Uart.writeAll_append, lineControl_writeAll later,
      lineControl_writeAll_single, List.singleton_append, lastOf_cons]
    cases lastOf (Event.put? 0x3fb) later with
    | some byte => rw [Option.some_or, Option.getD_some, Option.getD_some]
    | none => rw [Option.none_or, Option.getD_none]

/-! ### Talks -/

theorem lastOf_outputs {said? : Event → Option UInt8} : ∀ {all : List (UInt16 × UInt8)},
    (∀ write ∈ all, said? (.output write.1 write.2) = none) → lastOf said? (outputs all) = none
  | [], _ => rfl
  | write :: all, h => by
    obtain ⟨hfirst, hrest⟩ := List.forall_mem_cons.mp h
    have hcons : outputs (write :: all) = .output write.1 write.2 :: outputs all := rfl
    rw [hcons, lastOf_cons, lastOf_outputs hrest, hfirst]
    rfl

theorem messageTalk_eq (ready : Bool) (bytes : List UInt8) : messageTalk ready bytes =
    .locked :: .message bytes :: outputs ((if ready then bytes else []).map (SerialPort.firstLine, ·)) ++
      [.unlocked] := by
  cases ready <;> rfl

theorem lastOf_message (prior : List Event) (bytes sent : List UInt8) :
    let sofar := prior ++ .locked :: .message bytes :: outputs (sent.map (SerialPort.firstLine, ·))
    lastOf (Event.put? 0x3fb) sofar = lastOf (Event.put? 0x3fb) prior ∧
      lastOf (Event.got? 0x3fb) sofar = lastOf (Event.got? 0x3fb) prior := by
  intro sofar
  have hput : lastOf (Event.put? 0x3fb) (outputs (sent.map (SerialPort.firstLine, ·))) = none :=
    lastOf_outputs fun write hwrite => by
      obtain ⟨byte, -, rfl⟩ := List.mem_map.mp hwrite
      rfl
  have hgot : lastOf (Event.got? 0x3fb) (outputs (sent.map (SerialPort.firstLine, ·))) = none :=
    lastOf_outputs fun _ _ => rfl
  rw [lastOf_append, lastOf_cons, lastOf_cons, hput, lastOf_append, lastOf_cons, lastOf_cons, hgot]
  exact ⟨rfl, rfl⟩

/-- **A talk puts into the line control what it got from there**, if anything. -/
theorem Talk.restored {answers : UInt8 → Prop} {ready now : Bool} {talk : List Event}
    (h : Talk answers ready talk now) :
    lastOf (Event.put? 0x3fb) talk = lastOf (Event.got? 0x3fb) talk ∧
      ∀ control ∈ lastOf (Event.got? 0x3fb) talk, answers control := by
  cases h with
  | message bytes =>
    obtain ⟨hput, hgot⟩ := lastOf_message [] bytes (if ready then bytes else [])
    have hquiet (said? : Event → Option UInt8) (h : said? .unlocked = none) : lastOf said? [.unlocked] = none := by
      rw [lastOf_cons, h]
      rfl
    rw [messageTalk_eq, lastOf_append, lastOf_append, hquiet _ rfl, hquiet _ rfl, Option.none_or, Option.none_or]
    refine ⟨hput.trans hgot.symm, fun control hcontrol => ?_⟩
    cases hgot.symm.trans hcontrol
  | @setUp control hcontrol =>
    have hput : lastOf (Event.put? 0x3fb) (setUpTalk control) = some control := rfl
    have hgot : lastOf (Event.got? 0x3fb) (setUpTalk control) = some control := rfl
    rw [hput, hgot]
    refine ⟨rfl, fun found hfound => ?_⟩
    obtain rfl := Option.some.inj hfound
    exact hcontrol

/-- A byte is the next of a message, whose bytes are being put out. -/
def NextOfMessage (sofar : List Event) (byte : UInt8) : Prop :=
  ∃ before sent more, sofar =
    before ++ .message (sent ++ byte :: more) :: outputs (sent.map (SerialPort.firstLine, ·))

namespace Told

variable {answers : UInt8 → Prop} {ready now : Bool} {events before later : List Event} {byte : UInt8}

/-- **Between talks, what was last put into the line control is what was last got
from there.** -/
theorem restored (h : Told answers ready events now) :
    lastOf (Event.put? 0x3fb) events = lastOf (Event.got? 0x3fb) events ∧
      ∀ control ∈ lastOf (Event.got? 0x3fb) events, answers control := by
  induction h with
  | nothing => exact ⟨rfl, nofun⟩
  | @event _ _ event later hregular _ ih =>
    have hput : event.put? 0x3fb = none := by cases event <;> first | rfl | cases hregular
    have hgot : event.got? 0x3fb = none := by cases event <;> first | rfl | cases hregular
    rw [lastOf_cons, lastOf_cons, hput, hgot, Option.or_none, Option.or_none]
    exact ih
  | talk htalk _ ih =>
    obtain ⟨hsame, hanswers⟩ := htalk.restored
    rw [lastOf_append, lastOf_append, ih.1, hsame]
    refine ⟨rfl, fun control hcontrol => ?_⟩
    rcases Option.or_eq_some_iff.mp hcontrol with hlater | ⟨-, htold⟩
    · exact ih.2 control hlater
    · exact hanswers control htold

theorem answered (h : Told answers ready events now) (hset : .setUp ∈ events) :
    ∃ control, lastOf (Event.got? 0x3fb) events = some control := by
  obtain ⟨before, later, hevents⟩ := List.append_of_mem hset
  obtain ⟨prior, between, control, -, -, rfl⟩ := h.setUp_at hevents
  have hmem : Event.input 0x3fb control ∈ events := by simp [hevents]
  refine Option.isSome_iff_exists.mp (List.findSome?_isSome_iff.mpr ⟨_, List.mem_reverse.mpr hmem, rfl⟩)

/-- **At a byte of a message the line control is what was last got from there.** -/
theorem next_at (h : Told answers ready events now) (hevents : events = before ++ .output 0x3f8 byte :: later)
    (hnext : NextOfMessage before byte) (hset : .setUp ∈ before) :
    ∃ control, lastOf (Event.got? 0x3fb) before = some control ∧ lastOf (Event.put? 0x3fb) before = some control ∧
      answers control := by
  obtain ⟨before, sent, more, rfl⟩ := hnext
  rw [List.append_assoc, List.cons_append] at hevents
  obtain ⟨prior, between, _, hprior, rfl, -⟩ := h.message_at hevents
  have hset : .setUp ∈ prior := by simpa [not_mem_outputs] using hset
  obtain ⟨hsame, hanswers⟩ := hprior.restored
  obtain ⟨control, hgot⟩ := hprior.answered hset
  obtain ⟨hputs, hgots⟩ := lastOf_message prior (sent ++ byte :: more) sent
  rw [List.append_assoc, List.singleton_append, hputs, hgots, hsame, hgot]
  exact ⟨control, rfl, rfl, hanswers control hgot⟩

theorem outputs_sent_eq {bytes : List UInt8} {port : UInt16}
    (h : outputs (bytes.map (SerialPort.firstLine, ·)) = before ++ .output port byte :: later) :
    ∃ sent more, bytes = sent ++ byte :: more ∧ before = outputs (sent.map (SerialPort.firstLine, ·)) := by
  rw [outputs, List.map_map] at h
  obtain ⟨sent, left, rfl, hbefore, hleft⟩ := List.map_eq_append_iff.mp h
  obtain ⟨first, more, rfl, hfirst, -⟩ := List.map_eq_cons_iff.mp hleft
  obtain ⟨-, rfl⟩ := Event.output.inj hfirst
  exact ⟨sent, more, rfl, by rw [outputs, List.map_map, hbefore]⟩

/-- **What is put out at the first port is the next byte of a message**, or the
divisor, while the line control has it in place. -/
theorem output_at (h : Told answers ready events now) (hevents : events = before ++ .output 0x3f8 byte :: later) :
    NextOfMessage before byte ∨
      byte = 1 ∧ ∃ control, lastOf (Event.put? 0x3fb) before = some (control ||| 0x80) := by
  obtain ⟨prior, between, talk, after, begun, left, rest, -, htalk, hsplit, rfl, -⟩ := h.talk_at rfl hevents
  cases htalk with
  | message bytes =>
    left
    rw [messageTalk_eq] at hsplit
    obtain ⟨_, -, hlast⟩ | ⟨cut, hsplit, -⟩ := append_eq_append_cons hsplit
    · have hmem : Event.output 0x3f8 byte ∈ [Event.unlocked] := by simp [hlast]
      simp at hmem
    · have hparts : [.locked, .message bytes] ++ outputs ((if between then bytes else []).map
          (SerialPort.firstLine, ·)) = begun ++ .output 0x3f8 byte :: cut := hsplit
      obtain ⟨begun, rfl, hsent⟩ | ⟨_, hfirst, -⟩ := append_eq_append_cons hparts
      · obtain ⟨sent, more, hbytes, rfl⟩ := outputs_sent_eq hsent
        cases between with
        | false => simp at hbytes
        | true =>
          obtain rfl : bytes = sent ++ byte :: more := hbytes
          exact ⟨prior ++ [.locked], sent, more, by simp⟩
      · have hmem : Event.output 0x3f8 byte ∈ [.locked, .message bytes] := by simp [hfirst]
        simp at hmem
  | @setUp control _ =>
    right
    have hmem : Event.output 0x3f8 byte ∈ setUpTalk control := by rw [hsplit]; simp
    have hone : byte = 1 := by simpa [setUpTalk, setUpBegin, setUpEnd, outputs] using hmem
    subst hone
    have hparts : (.locked :: outputs setUpBegin ++ [.input 0x3fb control, .output 0x3fb (control ||| 0x80)]) ++
        .output 0x3f8 1 :: [.output 0x3f9 0, .output 0x3fb control, .setUp, .unlocked] =
          begun ++ .output 0x3f8 1 :: left := hsplit
    rw [List.append_cons_inj_of_notMem (by simp [setUpBegin, outputs]) (by simp)] at hparts
    obtain ⟨rfl, -⟩ := hparts
    rw [lastOf_append]
    exact ⟨rfl, control, rfl⟩

end Told

/-! ### What becomes of a byte -/

theorem writeAll_sent {control byte : UInt8} {sofar : List Event} {uart : Uart}
    (hcontrol : lastOf (Event.put? 0x3fb) sofar = some control) :
    let device (sofar : List Event) : Uart := uart.writeAll SerialPort.firstLine (writes sofar)
    device (sofar ++ [.output 0x3f8 byte]) =
      if control &&& 0x80 = 0 then { device sofar with transmitted := (device sofar).transmitted ++ [byte] }
      else { device sofar with divisorLow := byte } := by
  intro device
  have hwritten : uart.writeAll SerialPort.firstLine (writes (sofar ++ [.output 0x3f8 byte])) =
      (device sofar).write 0 byte := by
    rw [writes_append, Uart.writeAll_append]
    rfl
  have hline : (device sofar).lineControl = control := by
    rw [lineControl_writeAll, hcontrol, Option.getD_some]
  have haccess : (device sofar).divisorAccess = (control &&& 0x80 != 0) := by
    rw [Uart.divisorAccess, hline]
    rfl
  refine hwritten.trans ?_
  split
  · exact Uart.write_transmit byte (by rw [haccess]; simpa)
  · exact Uart.write_divisorLow byte (by rw [haccess]; simpa)

/-- **A byte of a message is transmitted if the device last answered with bit 7
clear.** A run of any steps, from any start, whatever is answered to a read of a port,
puts out at the first port the bytes of messages, and the divisor while the line
control has it in place. At a byte of a message after the port was set up, the line
control is what was last got from there: a byte that was answered, or the one for
eight bits. If bit 7 of it is clear the device transmits the byte; if not, the byte
becomes the low byte of the divisor and is not transmitted. -/
theorem sent_as_answered (settings : Settings) (selector : UInt16) (msrs : List (UInt32 × UInt64))
    (input : List UInt8) (serialReady : Bool) (script : List (List Action)) (steps : List Step) (uart : Uart) :
    let events := (run settings (start settings selector msrs input serialReady script) steps).flatMap (·.events)
    let device (sofar : List Event) : Uart := uart.writeAll SerialPort.firstLine (writes sofar)
    ∀ sofar byte later, events = sofar ++ .output 0x3f8 byte :: later →
      (NextOfMessage sofar byte ∨
        byte = 1 ∧ ∃ control, lastOf (Event.put? 0x3fb) sofar = some (control ||| 0x80)) ∧
      (NextOfMessage sofar byte → .setUp ∈ sofar → ∃ control,
        lastOf (Event.got? 0x3fb) sofar = some control ∧ lastOf (Event.put? 0x3fb) sofar = some control ∧
          (control = 3 ∨ control ∈ input) ∧
          device (sofar ++ [.output 0x3f8 byte]) =
            if control &&& 0x80 = 0 then { device sofar with transmitted := (device sofar).transmitted ++ [byte] }
            else { device sofar with divisorLow := byte }) := by
  intro events device sofar byte later hevents
  let m := start settings selector msrs input serialReady script
  let answers : UInt8 → Prop := fun control => control = 3 ∨ control ∈ input
  have hanswer : answers SerialPort.eightBits := .inl rfl
  have hstart : Counterpart answers m [] m m := .refl ⟨rfl, rfl⟩ fun _ => .inr
  obtain ⟨-, -, hlast⟩ := reports_counterpart settings hanswer steps hstart
  have htold : Told answers serialReady events ((reports settings steps).run m).2.console.value.ready := hlast.told
  refine ⟨htold.output_at hevents, fun hnext hset => ?_⟩
  obtain ⟨control, hgot, hput, hcontrol⟩ := htold.next_at hevents hnext hset
  exact ⟨control, hgot, hput, hcontrol, writeAll_sent hput⟩

/-- The device answers with bit 7 clear, and with bit 7 set when it is set up again:
the first message is transmitted, and the second becomes the divisor. -/
theorem sent_as_answered_set_up_twice :
    let settings : Settings := ⟨true, 1, 1, 0x400000⟩
    let steps : List Step := [.serialSetUp, .print "A", .serialSetUp, .print "B"]
    let events := (run settings (start settings 0x10 [] [0x03, 0x83] false []) steps).flatMap (·.events)
    let sofar := events.take 30
    events = sofar ++ .output 0x3f8 66 :: events.drop 31 ∧ NextOfMessage sofar 66 ∧ .setUp ∈ sofar ∧
      Uart.writeAll SerialPort.firstLine ⟨0, 0, 0, 0, []⟩ (writes (sofar ++ [.output 0x3f8 66])) =
        ⟨0, 0x83, 66, 0, [65]⟩ := by
  intro settings steps events sofar
  have hevents : events = sofar ++ .output 0x3f8 66 :: events.drop 31 := by decide +kernel
  have hnext : NextOfMessage sofar 66 := ⟨events.take 29, [], [], by decide +kernel⟩
  have hset : .setUp ∈ sofar := by decide +kernel
  obtain ⟨-, hsent⟩ :=
    sent_as_answered settings 0x10 [] [0x03, 0x83] false [] steps ⟨0, 0, 0, 0, []⟩ sofar 66 _ hevents
  obtain ⟨control, hgot, -, -, hdevice⟩ := hsent hnext hset
  have hlast : lastOf (Event.got? 0x3fb) sofar = some 0x83 := by decide +kernel
  obtain rfl : 0x83 = control := Option.some.inj (hlast.symm.trans hgot)
  refine ⟨hevents, hnext, hset, hdevice.trans ?_⟩
  decide +kernel

/-- It is not always transmitted: a device that answers with bit 7 set is left with the
divisor in place by setting the port up, and the message after that finds it so. -/
theorem divisor_left_in_place : ¬ ∀ (settings : Settings) (input : List UInt8) (steps : List Step),
    let events := (run settings (start settings 0x10 [] input false []) steps).flatMap (·.events)
    ∀ sofar byte later, events = sofar ++ .output 0x3f8 byte :: later → NextOfMessage sofar byte → .setUp ∈ sofar →
      ∃ control, lastOf (Event.put? 0x3fb) sofar = some control ∧ control &&& 0x80 = 0 := by
  intro hall
  let settings : Settings := ⟨true, 1, 1, 0x400000⟩
  let steps : List Step := [.serialSetUp, .print "A"]
  let events := (run settings (start settings 0x10 [] [0x83] false []) steps).flatMap (·.events)
  have hevents : events = events.take 14 ++ .output 0x3f8 65 :: events.drop 15 := by decide +kernel
  have hnext : NextOfMessage (events.take 14) 65 := ⟨events.take 13, [], [], by decide +kernel⟩
  have hset : .setUp ∈ events.take 14 := by decide +kernel
  have hlast : lastOf (Event.put? 0x3fb) (events.take 14) = some 0x83 := by decide +kernel
  obtain ⟨control, hput, hclear⟩ := hall settings [0x83] steps _ 65 _ hevents hnext hset
  obtain rfl : 0x83 = control := Option.some.inj (hlast.symm.trans hput)
  exact absurd hclear (by decide)

end Machine
end SyscallGate
