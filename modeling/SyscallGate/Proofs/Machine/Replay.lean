/-
# A machine read off its events

The code selector and the MSRs change by events only, so what they were at any
moment of a run is what the events up to then make of what they were at the
start (`Holdings.replay`). With that, an event can be held against the machine
at the moment it happens (`Event.Fits`): a read shows what is there, SYSCALL
begins in a reduced ring, and VMGEXIT begins with the request in the MSR that it
is made for. Every instruction keeps the account (`instructions_accounted`), and
so does the code that leaves: between a request and its exit nothing else
happens.

Key definitions: `Machine.lastOf`, `Machine.Holdings`,
`Machine.Holdings.replay`, `Machine.Event.Fits`, `Machine.Fitting`,
`Machine.Account`.
Key theorems: `Machine.fitting_append`, `Machine.instructions_accounted`,
`Machine.gate_accounted`, `Machine.terminate_accounted`,
`Machine.runStep_account`.
-/
import SyscallGate.Proofs.Integer
import SyscallGate.Proofs.Machine.Instructions

namespace SyscallGate
namespace Machine

/-- What the last of the events says that says something, the oldest event first. -/
def lastOf {α : Type} (said? : Event → Option α) (events : List Event) : Option α :=
  events.reverse.findSome? said?

theorem lastOf_append {α : Type} (said? : Event → Option α) (events later : List Event) :
    lastOf said? (events ++ later) = (lastOf said? later).or (lastOf said? events) := by
  rw [lastOf, List.reverse_append, List.findSome?_append]
  rfl

theorem lastOf_cons {α : Type} (said? : Event → Option α) (event : Event) (later : List Event) :
    lastOf said? (event :: later) = (lastOf said? later).or (said? event) := by
  have hone : lastOf said? [event] = said? event := by
    rw [lastOf, List.reverse_singleton, List.findSome?_singleton]
  rw [← List.singleton_append, lastOf_append, hone]

/-- The code selector and the MSRs. -/
structure Holdings where
  selector : UInt16
  msrs : UInt32 → UInt64

/-- What a machine holds of them. -/
def holdings (m : Machine) : Holdings := ⟨m.selector, m.msrs⟩

/-- They change when they are set from outside, and an MSR when it is written. -/
def Holdings.after (held : Holdings) : Event → Holdings
  | .setSelector selector => { held with selector }
  | .setMsr msr value | .writeMsr msr value => { held with msrs := assign held.msrs msr value }
  | _ => held

/-- What is held after events, the oldest of them first. -/
def Holdings.replay (held : Holdings) (events : List Event) : Holdings :=
  events.foldl Holdings.after held

/-- What an event says of the selector and the MSRs at the moment it happens. A
call leaves by SYSCALL in a reduced ring, and in ring 0 by VMGEXIT with the
request to run a level; a termination leaves with its own request. -/
def Event.Fits (held : Holdings) : Event → Prop
  | readSelector selector => selector = held.selector
  | readMsr msr value => value = held.msrs msr
  | exit .syscall _ _ => held.selector &&& 3 ≠ 0
  | exit .vmgexit .call _ => held.selector &&& 3 = 0 ∧ held.msrs 0xc0010130 = 0x16
  | exit .vmgexit (.terminate reasonSet reasonCode) _ =>
    held.msrs 0xc0010130 = Ghcb.terminateRequest reasonSet reasonCode
  | _ => True

/-- Events that fit, one after the other. -/
def Fitting (held : Holdings) : List Event → Prop
  | [] => True
  | event :: later => event.Fits held ∧ Fitting (held.after event) later

theorem fitting_append : ∀ (before later : List Event) (held : Holdings),
    Fitting held (before ++ later) ↔ Fitting held before ∧ Fitting (held.replay before) later
  | [], _, _ => by simp [Fitting, Holdings.replay]
  | event :: before, later, held => by
    rw [List.cons_append, Fitting, Fitting, fitting_append before later, and_assoc]
    rfl

/-- An event among events that fit does so itself, where it stands. -/
theorem Fitting.fits {held : Holdings} {before later : List Event} {event : Event}
    (h : Fitting held (before ++ event :: later)) : event.Fits (held.replay before) :=
  ((fitting_append before _ held).mp h).2.1

/-- Events that lead from one machine to another: they are what happened in
between, they explain what is held, and they fit. -/
structure Account (origin : Machine) (events : List Event) (m : Machine) : Prop where
  history : m.history = events.reverse ++ origin.history
  holdings : m.holdings = origin.holdings.replay events
  fitting : Fitting origin.holdings events

namespace Account

variable {a b c : Machine} {events later : List Event}

theorem refl (m : Machine) : Account m [] m := ⟨rfl, rfl, trivial⟩

theorem append (h : Account a events b) (hlater : Account b later c) : Account a (events ++ later) c where
  history := by rw [hlater.history, h.history, List.reverse_append, List.append_assoc]
  holdings := by rw [hlater.holdings, h.holdings, Holdings.replay, Holdings.replay, Holdings.replay,
    List.foldl_append]
  fitting := (fitting_append events later _).mpr ⟨h.fitting, h.holdings ▸ hlater.fitting⟩

theorem congr (h : Account a events b) (hhistory : c.history = b.history)
    (hholdings : c.holdings = b.holdings) : Account a events c :=
  ⟨hhistory.trans h.history, hholdings.trans h.holdings, h.fitting⟩

theorem since_eq (h : Account a events b) : since a.history b.history = events := by
  rw [h.history, since_append, List.reverse_reverse]

end Account

/-- There is an account of what happened since `origin`. -/
def Accounted (origin m : Machine) : Prop := ∃ events, Account origin events m

namespace Accounted

variable {origin m m' : Machine}

theorem congr (h : Accounted origin m) (hhistory : m'.history = m.history)
    (hholdings : m'.holdings = m.holdings) : Accounted origin m' := by
  obtain ⟨events, hevents⟩ := h
  exact ⟨events, hevents.congr hhistory hholdings⟩

theorem next (h : Accounted origin m) (event : Event) (hfits : event.Fits m.holdings)
    (hhistory : m'.history = event :: m.history) (hholdings : m'.holdings = m.holdings.after event) :
    Accounted origin m' := by
  obtain ⟨events, hevents⟩ := h
  exact ⟨events ++ [event], hevents.append ⟨hhistory, hholdings, hfits, trivial⟩⟩

end Accounted

/-! ### Instructions -/

theorem fits_of_isNote {event : Event} (h : event.isNote) (held : Holdings) :
    event.Fits held ∧ held.after event = held := by
  cases event <;> first | exact ⟨trivial, rfl⟩ | cases h

theorem readMsr_run (msr : UInt32) (m : Machine) :
    (readMsr msr).run m = (m.msrs msr, m.recording (.readMsr msr (m.msrs msr))) :=
  Prod.ext (joinHalves_halves (m.msrs msr)) rfl

theorem writeMsr_run (msr : UInt32) (value : UInt64) (m : Machine) :
    (writeMsr msr value).run m =
      ((), { m.recording (.writeMsr msr value) with msrs := assign m.msrs msr value }) := by
  have hvalue := joinHalves_halves value
  rw [writeMsr, wrmsr, hvalue]
  rfl

theorem msrs_writeMsr (msr : UInt32) (value : UInt64) (m : Machine) :
    ((writeMsr msr value).run m).2.holdings.msrs msr = value := by
  rw [writeMsr_run]
  exact assign_same m.msrs msr value

section

variable (origin : Machine)

/-- One machine on both sides, with an account of what happened since `origin`. -/
def SameAccounted (m n : Machine) : Prop := n = m ∧ Accounted origin m

variable {origin}

theorem accounted_run {α : Type} {x : StateM Machine α} (hx : Lockstep (SameAccounted origin) x x)
    {m : Machine} (h : Accounted origin m) : Accounted origin (x.run m).2 :=
  (hx m m ⟨rfl, h⟩).2.2

/-- An instruction with one event that fits, and the effect of that event. -/
theorem lockstep_of_next {α : Type} {x : StateM Machine α} (event : Machine → Event)
    (hfits : ∀ m, (event m).Fits m.holdings) (hhistory : ∀ m, (x.run m).2.history = event m :: m.history)
    (hholdings : ∀ m, (x.run m).2.holdings = m.holdings.after (event m)) :
    Lockstep (SameAccounted origin) x x := by
  rintro m _ ⟨rfl, h⟩
  exact ⟨rfl, rfl, h.next _ (hfits _) (hhistory _) (hholdings _)⟩

theorem instructions_accounted : Instructions (SameAccounted origin) where
  haltsLeft := by rintro m _ ⟨rfl, -⟩; rfl
  pausesLeft := by rintro m _ ⟨rfl, -⟩; rfl
  script := by rintro m _ ⟨rfl, -⟩; rfl
  console := by rintro m _ ⟨rfl, -⟩; rfl
  setHalts := by rintro m _ _ ⟨rfl, h⟩; exact ⟨rfl, h.congr rfl rfl⟩
  setPauses := by rintro m _ _ ⟨rfl, h⟩; exact ⟨rfl, h.congr rfl rfl⟩
  setConsole := by rintro m _ _ ⟨rfl, h⟩; exact ⟨rfl, h.congr rfl rfl⟩
  note event hnote := lockstep_of_next (fun _ => event) (fun m => (fits_of_isNote hnote m.holdings).1)
    (fun _ => rfl) fun m => (fits_of_isNote hnote m.holdings).2.symm
  nextHandler := by
    rintro ⟨selector, msrs, input, written, console, script, haltsLeft, pausesLeft, history⟩ _ ⟨rfl, h⟩
    cases script with
    | nil => exact ⟨rfl, rfl, h⟩
    | cons handler script => exact ⟨rfl, rfl, h.congr rfl rfl⟩
  setSelector selector := lockstep_of_next (fun _ => .setSelector selector) (fun _ => trivial)
    (fun _ => rfl) fun _ => rfl
  setMsr msr value := lockstep_of_next (fun _ => .setMsr msr value) (fun _ => trivial)
    (fun _ => rfl) fun _ => rfl
  readSelector := lockstep_of_next (fun m => .readSelector m.selector) (fun _ => rfl)
    (fun _ => rfl) fun _ => rfl
  readMsr msr := lockstep_of_next (fun m => .readMsr msr (m.msrs msr)) (fun _ => rfl)
    (fun _ => rfl) fun _ => rfl
  writeMsr msr value := lockstep_of_next (fun _ => .writeMsr msr value) (fun _ => trivial)
    (fun m => by rw [writeMsr_run]; rfl) fun m => by rw [writeMsr_run]; rfl
  portIn port := by
    rintro ⟨selector, msrs, input, written, console, script, haltsLeft, pausesLeft, history⟩ _ ⟨rfl, h⟩
    cases input with
    | nil => exact ⟨rfl, rfl, h.next (.input port (written port)) trivial rfl rfl⟩
    | cons byte input => exact ⟨rfl, rfl, h.next (.input port byte) trivial rfl rfl⟩
  portOut port byte := lockstep_of_next (fun _ => .output port byte) (fun _ => trivial)
    (fun _ => rfl) fun _ => rfl

/-! ### Leaving -/

/-- **A call leaves by the instruction of its ring**, and by VMGEXIT with its
request: it was the last thing written. -/
theorem approach_accounted {m : Machine} (h : Accounted origin m) :
    Accounted origin (approach.run m).2 ∧ ∀ shown,
      (Event.exit (approach.run m).1 .call shown).Fits (approach.run m).2.holdings := by
  have hread : Accounted origin (m.recording (.readSelector m.selector)) :=
    h.next (.readSelector m.selector) rfl rfl rfl
  rw [approach_run]
  by_cases hring : m.selector &&& 3 = 0
  · have hwritten := accounted_run (instructions_accounted.writeMsr 0xc0010130 0x16) hread
    have hrequest := msrs_writeMsr 0xc0010130 0x16 (m.recording (.readSelector m.selector))
    rw [if_pos hring]
    exact ⟨hwritten, fun _ => ⟨hring, hrequest⟩⟩
  · rw [if_neg hring]
    exact ⟨hread, fun _ => hring⟩

section

variable {server server' : Server} (hs : Companions (SameAccounted origin) server server')

include hs

theorem leaveFor_accounted {m : Machine} (h : Accounted origin m) {kind : Exit} {purpose : Purpose}
    (hfits : ∀ shown, (Event.exit kind purpose shown).Fits m.holdings) (window : Window) (regs : Registers) :
    ((leaveFor server kind purpose window regs).run m).1 =
        ((leaveFor server' kind purpose window regs).run m).1 ∧
      SameAccounted origin ((leaveFor server kind purpose window regs).run m).2
        ((leaveFor server' kind purpose window regs).run m).2 := by
  have hleft : Accounted origin
      (m.recording (.exit kind purpose (window.shown.map fun r => (r, regs.get r)))) :=
    h.next _ (hfits _) rfl rfl
  obtain ⟨hregs, hafter⟩ := hs (kind.handOver (window.look regs)) _ _ ⟨rfl, hleft⟩
  exact ⟨congrArg (window.takeBack regs) hregs, hafter⟩

/-- The handlers of a call come after its exit, so it is no matter what they
write. -/
theorem gate_accounted (window : Exit → Window) (regs : Registers) :
    Lockstep (SameAccounted origin) (gate server window regs) (gate server' window regs) := by
  rintro _ m ⟨rfl, h⟩
  obtain ⟨hnear, hfits⟩ := approach_accounted h
  obtain ⟨hregs, hafter⟩ := leaveFor_accounted hs hnear hfits (window (approach.run m).1) regs
  exact ⟨congrArg (Prod.mk (approach.run m).1) hregs, hafter⟩

theorem vmgexit_accounted {m : Machine} (h : Accounted origin m) {purpose : Purpose}
    (hfits : ∀ shown, (Event.exit .vmgexit purpose shown).Fits m.holdings) :
    SameAccounted origin ((vmgexit server purpose).run m).2 ((vmgexit server' purpose).run m).2 :=
  (leaveFor_accounted hs h hfits Window.closed Registers.zero).2

theorem terminate_accounted {α : Type} (reasonSet reasonCode : UInt64) :
    Lockstep (SameAccounted origin) (terminate server reasonSet reasonCode : Exec α).run
      (terminate server' reasonSet reasonCode : Exec α).run := by
  rintro _ m ⟨rfl, h⟩
  have hrun (server : Server) : (terminate server reasonSet reasonCode : Exec α).run.run m =
      haltForever.run.run ((vmgexit server (.terminate reasonSet reasonCode)).run
        ((writeMsr Ghcb.msr (Ghcb.terminateRequest reasonSet reasonCode)).run m).2).2 := rfl
  have hwritten := accounted_run (instructions_accounted.writeMsr Ghcb.msr
    (Ghcb.terminateRequest reasonSet reasonCode)) h
  have hrequest := msrs_writeMsr Ghcb.msr (Ghcb.terminateRequest reasonSet reasonCode) m
  rw [hrun, hrun]
  exact instructions_accounted.plain.haltForever _ _ (vmgexit_accounted hs hwritten fun _ => hrequest)

/-- A request is its caller's affair. -/
theorem request_accounted :
    Lockstep (SameAccounted origin) (vmgexit server .request) (vmgexit server' .request) := by
  rintro _ m ⟨rfl, h⟩
  exact ⟨rfl, vmgexit_accounted hs h fun _ => trivial⟩

end

theorem kept_accounted (settings : Settings) : Kept (SameAccounted origin) settings settings :=
  instructions_accounted.kept_of_leaving settings (fun hs => gate_accounted hs)
    (fun hs _ => terminate_accounted hs) fun hs => request_accounted hs

/-- **Every step accounts for itself**, with all that handlers do in it. -/
theorem runStep_account (settings : Settings) (step : Step) (m : Machine) :
    Accounted m ((runStep settings (handle settings) step).run m).2 :=
  accounted_run ((kept_accounted settings).runStep (kept_accounted settings).handle step) ⟨[], .refl m⟩

end

end Machine
end SyscallGate
