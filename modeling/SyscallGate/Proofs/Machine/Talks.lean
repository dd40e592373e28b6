/-
# A run among its talks

Whoever talks to the console is not interrupted: the events of a run are whole
talks, one after the other, and events of other kinds between them. `Told` says
that of events, and with it what a talk depends on: whether the port was set up
before it, and what the line control is answered with. The console can be read
off such events, and it is at rest at every one of them that is not of a talk
(`Told.atRest`).

Key definitions: `Machine.Event.isRegular`, `Machine.Talk`, `Machine.Told`,
`Machine.replayConsole`.
Key theorems: `Machine.Told.append`, `Machine.Told.split`,
`Machine.Told.regular_at`, `Machine.Told.talk_at`, `Machine.Told.locked_at`, `Machine.Told.message_at`,
`Machine.Told.setUp_at`, `Machine.Told.atRest`.
-/
import Mathlib.Data.List.Basic
import SyscallGate.Proofs.Machine.Faultless
import SyscallGate.Proofs.Machine.Instructions

namespace SyscallGate
namespace Machine

/-- Whether an event may stand between talks: it is of none, of no wait for the
console, and of no fault. -/
def Event.isRegular : Event → Bool
  | spin => false
  | leave result => !result.isFault
  | event => !event.isTalk

theorem Event.not_isTalk_of_isRegular {event : Event} (h : event.isRegular) : event.isTalk = false := by
  cases event <;> first | rfl | cases h

/-- A whole talk, before which the port was set up or not, and after which it
is. -/
inductive Talk (answers : UInt8 → Prop) (ready : Bool) : List Event → Bool → Prop where
  | message (bytes : List UInt8) : Talk answers ready (messageTalk ready bytes) ready
  | setUp {control : UInt8} : answers control → Talk answers ready (setUpTalk control) true

/-- Events that are whole talks, and others between them. -/
inductive Told (answers : UInt8 → Prop) : Bool → List Event → Bool → Prop where
  | nothing {ready : Bool} : Told answers ready [] ready
  | event {ready now : Bool} {event : Event} {later : List Event} :
    event.isRegular → Told answers ready later now → Told answers ready (event :: later) now
  | talk {ready between now : Bool} {talk later : List Event} :
    Talk answers ready talk between → Told answers between later now → Told answers ready (talk ++ later) now

variable {answers : UInt8 → Prop}

theorem isTalk_outputs {writes : List (UInt16 × UInt8)} : ∀ event ∈ outputs writes, event.isTalk := by
  intro event h
  obtain ⟨write, -, rfl⟩ := List.mem_map.mp h
  rfl

theorem not_mem_outputs {event : Event} (h : ∀ port byte, event ≠ .output port byte)
    (writes : List (UInt16 × UInt8)) : event ∉ outputs writes := by
  intro hmem
  obtain ⟨⟨port, byte⟩, -, rfl⟩ := List.mem_map.mp hmem
  exact h port byte rfl

theorem Talk.isTalk {ready now : Bool} {talk : List Event} (h : Talk answers ready talk now) :
    ∀ event ∈ talk, event.isTalk := by
  intro event hevent
  cases h with
  | message bytes =>
    simp only [messageTalk, List.cons_append, List.mem_cons, List.mem_append, List.not_mem_nil, or_false] at hevent
    obtain rfl | rfl | hbytes | rfl := hevent
    · rfl
    · rfl
    · exact isTalk_outputs event hbytes
    · rfl
  | setUp _ =>
    simp only [setUpTalk, List.cons_append, List.mem_cons, List.mem_append, List.not_mem_nil, or_false] at hevent
    obtain rfl | (hbegin | rfl | hend) | rfl | rfl := hevent
    · rfl
    · exact isTalk_outputs event hbegin
    · rfl
    · exact isTalk_outputs event hend
    · rfl
    · rfl

theorem append_eq_append_cons {α : Type} {first second before later : List α} {a : α}
    (h : first ++ second = before ++ a :: later) :
    (∃ rest, before = first ++ rest ∧ second = rest ++ a :: later) ∨
      ∃ cut, first = before ++ a :: cut ∧ later = cut ++ second := by
  obtain ⟨rest, hbefore, hsecond⟩ | ⟨cut, hfirst, hcut⟩ := List.append_eq_append_iff.mp h
  · exact .inl ⟨rest, hbefore, hsecond⟩
  · cases cut with
    | nil =>
      rw [List.append_nil] at hfirst
      exact .inl ⟨[], by rw [hfirst, List.append_nil], hcut.symm⟩
    | cons b cut =>
      obtain ⟨rfl, hlater⟩ := List.cons.inj hcut
      exact .inr ⟨cut, hfirst, hlater⟩

namespace Told

variable {ready between now : Bool} {events before later : List Event} {event : Event}

theorem append (h : Told answers ready events between) (hlater : Told answers between later now) :
    Told answers ready (events ++ later) now := by
  induction h with
  | nothing => exact hlater
  | event hregular _ ih => exact .event hregular (ih hlater)
  | talk htalk _ ih => exact (List.append_assoc _ _ _) ▸ Told.talk htalk (ih hlater)

/-- An event stands between talks, or it is of one of them. -/
theorem split (h : Told answers ready events now) : events = before ++ event :: later →
    (∃ between, Told answers ready before between ∧ event.isRegular) ∨
      ∃ prior between talk after begun left rest, Told answers ready prior between ∧
        Talk answers between talk after ∧ talk = begun ++ event :: left ∧ before = prior ++ begun ∧
          later = left ++ rest := by
  -- by induction on what is told, as `before` gets shorter with it
  induction h generalizing before with
  | nothing => simp
  | event hfirst _ ih =>
    intro hevents
    cases before with
    | nil =>
      obtain ⟨rfl, -⟩ := List.cons.inj hevents
      exact .inl ⟨_, .nothing, hfirst⟩
    | cons _ before =>
      obtain ⟨rfl, hrest⟩ := List.cons.inj hevents
      obtain hregular | htalk := ih hrest
      · obtain ⟨between, hbefore, hregular⟩ := hregular
        exact .inl ⟨between, .event hfirst hbefore, hregular⟩
      · obtain ⟨prior, between, talk, after, begun, left, rest, hprior, htalk, hsplit, rfl, hleft⟩ := htalk
        exact .inr ⟨_, between, talk, after, begun, left, rest, .event hfirst hprior, htalk, hsplit, rfl, hleft⟩
  | talk hin _ ih =>
    intro hevents
    obtain ⟨before, rfl, hrest⟩ | ⟨cut, rfl, rfl⟩ := append_eq_append_cons hevents
    · obtain hregular | htalk := ih hrest
      · obtain ⟨between, hbefore, hregular⟩ := hregular
        exact .inl ⟨between, .talk hin hbefore, hregular⟩
      · obtain ⟨prior, between, talk, after, begun, left, rest, hprior, htalk, hsplit, rfl, hleft⟩ := htalk
        exact .inr ⟨_, between, talk, after, begun, left, rest, .talk hin hprior, htalk, hsplit,
          (List.append_assoc _ _ _).symm, hleft⟩
    · exact .inr ⟨[], _, _, _, before, cut, _, .nothing, hin, rfl, rfl, rfl⟩

theorem regular_at (h : Told answers ready events now) (hregular : event.isTalk = false)
    (hevents : events = before ++ event :: later) :
    ∃ between, Told answers ready before between ∧ event.isRegular := by
  refine (h.split hevents).resolve_right ?_
  rintro ⟨_, _, talk, _, begun, left, _, _, htalk, hsplit, -, -⟩
  rw [htalk.isTalk event (by simp [hsplit])] at hregular
  cases hregular

theorem talk_at (h : Told answers ready events now) (htalk : event.isTalk)
    (hevents : events = before ++ event :: later) : ∃ prior between talk after begun left rest,
      Told answers ready prior between ∧ Talk answers between talk after ∧
        talk = begun ++ event :: left ∧ before = prior ++ begun ∧ later = left ++ rest := by
  refine (h.split hevents).resolve_left ?_
  rintro ⟨_, _, hregular⟩
  rw [Event.not_isTalk_of_isRegular hregular] at htalk
  cases htalk

theorem locked_at (h : Told answers ready events now) (hevents : events = before ++ .locked :: later) :
    ∃ between, Told answers ready before between := by
  obtain ⟨prior, between, talk, after, begun, left, rest, hprior, htalk, hsplit, rfl, -⟩ := h.talk_at rfl hevents
  obtain ⟨more, hmore, hnone⟩ : ∃ more, talk = [] ++ .locked :: more ∧ .locked ∉ more := by
    cases htalk with
    | message bytes => exact ⟨_, rfl, by simp [not_mem_outputs]⟩
    | setUp _ => exact ⟨_, rfl, by simp [not_mem_outputs]⟩
  rw [hmore, List.append_cons_inj_of_notMem List.not_mem_nil hnone] at hsplit
  rw [← hsplit.1, List.append_nil]
  exact ⟨between, hprior⟩

/-- The bytes of a message follow it, if the port was set up, and then the lock
is given up. -/
theorem message_at {bytes : List UInt8} (h : Told answers ready events now)
    (hevents : events = before ++ .message bytes :: later) : ∃ prior between rest,
      Told answers ready prior between ∧ before = prior ++ [.locked] ∧
        later = outputs (if between then bytes.map (SerialPort.firstLine, ·) else []) ++ .unlocked :: rest := by
  obtain ⟨prior, between, talk, after, begun, left, rest, hprior, htalk, hsplit, rfl, rfl⟩ := h.talk_at rfl hevents
  cases htalk with
  | message said =>
    have htail : Event.message bytes ∉ outputs (if between then said.map (SerialPort.firstLine, ·) else []) ++
        [.unlocked] := by simp [not_mem_outputs]
    have hparts : [Event.locked] ++ .message said :: (outputs (if between then said.map (SerialPort.firstLine, ·)
        else []) ++ [.unlocked]) = begun ++ .message bytes :: left := hsplit
    rw [List.append_cons_inj_of_notMem (by simp) htail] at hparts
    obtain ⟨rfl, hsaid, rfl⟩ := hparts
    obtain rfl := Event.message.inj hsaid
    exact ⟨prior, between, rest, hprior, rfl, List.append_assoc _ _ _⟩
  | @setUp control _ =>
    have hmem : Event.message bytes ∈ setUpTalk control := hsplit ▸ by simp
    simp [setUpTalk, not_mem_outputs] at hmem

/-- The port is set up at the end of a talk of its own. -/
theorem setUp_at (h : Told answers ready events now) (hevents : events = before ++ .setUp :: later) :
    ∃ prior between control, Told answers ready prior between ∧ answers control ∧
      before = prior ++ (.locked :: outputs setUpBegin ++ .input 0x3fb control :: outputs (setUpEnd control)) := by
  obtain ⟨prior, between, talk, after, begun, left, rest, hprior, htalk, hsplit, rfl, rfl⟩ := h.talk_at rfl hevents
  cases htalk with
  | message said =>
    have hmem : Event.setUp ∈ messageTalk between said := hsplit ▸ by simp
    simp [messageTalk, not_mem_outputs] at hmem
  | @setUp control hcontrol =>
    have hparts : (.locked :: outputs setUpBegin ++ .input 0x3fb control :: outputs (setUpEnd control)) ++
        .setUp :: [.unlocked] = begun ++ .setUp :: left := hsplit
    rw [List.append_cons_inj_of_notMem (by simp [not_mem_outputs]) (by simp)] at hparts
    exact ⟨prior, between, control, hprior, hcontrol, by rw [← hparts.1]⟩

theorem spin_not_mem (h : Told answers ready events now) : Event.spin ∉ events := by
  intro hmem
  obtain ⟨before, later, hevents⟩ := List.append_of_mem hmem
  obtain ⟨-, -, hregular⟩ := h.regular_at rfl hevents
  cases hregular

end Told

/-! ### The console -/

/-- The console changes when its lock is granted or given up, and when it is set
up. -/
def consoleAfter (console : TicketLock SerialPort) : Event → TicketLock SerialPort
  | .locked => console.take.2
  | .setUp => { console with value := { console.value with ready := true } }
  | .unlocked => console.release
  | _ => console

/-- The console after events, the oldest of them first. -/
def replayConsole (console : TicketLock SerialPort) (events : List Event) : TicketLock SerialPort :=
  events.foldl consoleAfter console

theorem replayConsole_append (console : TicketLock SerialPort) (events later : List Event) :
    replayConsole console (events ++ later) = replayConsole (replayConsole console events) later :=
  List.foldl_append

theorem replayConsole_outputs (console : TicketLock SerialPort) : ∀ writes : List (UInt16 × UInt8),
    replayConsole console (outputs writes) = console
  | [] => rfl
  | _ :: writes => replayConsole_outputs console writes

theorem replayConsole_messageTalk (console : TicketLock SerialPort) (ready : Bool) (bytes : List UInt8) :
    replayConsole console (messageTalk ready bytes) = passed console console.value := by
  have hsent : ∀ writes, replayConsole console (.locked :: .message bytes :: outputs writes) = console.take.2 :=
    replayConsole_outputs console.take.2
  rw [messageTalk, replayConsole_append, hsent]
  rfl

theorem replayConsole_setUpTalk (console : TicketLock SerialPort) (control : UInt8) :
    replayConsole console (setUpTalk control) = passed console { console.value with ready := true } := rfl

theorem consoleAfter_of_isRegular {event : Event} (h : event.isRegular) (console : TicketLock SerialPort) :
    consoleAfter console event = console := by
  cases event <;> first | rfl | cases h

/-- **After every talk the console is at rest again.** -/
theorem Told.atRest {ready now : Bool} {events : List Event} (h : Told answers ready events now) :
    ∀ {console : TicketLock SerialPort}, AtRest console → console.value.ready = ready →
      AtRest (replayConsole console events) ∧ (replayConsole console events).value.ready = now := by
  induction h with
  | nothing => exact fun hrest hready => ⟨hrest, hready⟩
  | event hregular _ ih =>
    intro console hrest hready
    rw [replayConsole, List.foldl_cons, consoleAfter_of_isRegular hregular]
    exact ih hrest hready
  | talk htalk _ ih =>
    intro console hrest hready
    rw [replayConsole_append]
    cases htalk with
    | message bytes =>
      rw [replayConsole_messageTalk]
      exact ih (hrest.passed rfl) hready
    | setUp _ =>
      rw [replayConsole_setUpTalk]
      exact ih (hrest.passed rfl) rfl

end Machine
end SyscallGate
