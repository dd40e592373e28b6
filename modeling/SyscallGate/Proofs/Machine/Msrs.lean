/-
# The MSRs over whole runs

An MSR holds what was last stored in it, whoever stored it: code by WRMSR, a
change from outside, or a handler, at whatever depth. A read shows that value,
all of its bits, although it passes through two halves. What an operation writes
for itself is a request in the GHCB MSR, and it leaves for it.

Key definitions: `Machine.Event.stored?`, `Machine.lastStored`,
`Machine.OnlyRequests`.
Key theorems: `Machine.Holdings.replay_msrs`, `Machine.msrs_hold_last_stored`.
-/
import SyscallGate.Proofs.Machine.Own
import SyscallGate.Proofs.Machine.Requests

namespace SyscallGate
namespace Machine

/-- The value that an event stores in an MSR. -/
def Event.stored? (msr : UInt32) : Event → Option UInt64
  | writeMsr stored value | setMsr stored value => if msr = stored then some value else none
  | _ => none

/-- The value last stored in an MSR, by events of which the oldest comes first. -/
def lastStored (msr : UInt32) (events : List Event) : Option UInt64 :=
  lastOf (Event.stored? msr) events

theorem lastStored_cons (msr : UInt32) (event : Event) (later : List Event) :
    lastStored msr (event :: later) = (lastStored msr later).or (event.stored? msr) :=
  lastOf_cons (Event.stored? msr) event later

theorem Holdings.after_msrs (held : Holdings) (event : Event) (msr : UInt32) :
    (held.after event).msrs msr = (event.stored? msr).getD (held.msrs msr) := by
  have hassign (stored : UInt32) (value : UInt64) : assign held.msrs stored value msr =
      (if msr = stored then some value else none).getD (held.msrs msr) := by
    rw [assign]
    by_cases hsame : msr = stored
    · rw [if_pos hsame, if_pos hsame, Option.getD_some]
    · rw [if_neg hsame, if_neg hsame, Option.getD_none]
  cases event <;> first | exact hassign _ _ | rfl

/-- **What an MSR holds after events is what they last stored there**, and
without that it is what it was. -/
theorem Holdings.replay_msrs (msr : UInt32) : ∀ (events : List Event) (held : Holdings),
    (held.replay events).msrs msr = (lastStored msr events).getD (held.msrs msr)
  | [], _ => rfl
  | event :: later, held => by
    rw [Holdings.replay, List.foldl_cons, ← Holdings.replay, replay_msrs msr later, lastStored_cons,
      Holdings.after_msrs]
    cases lastStored msr later with
    | some value => rw [Option.some_or, Option.getD_some, Option.getD_some]
    | none => rw [Option.none_or, Option.getD_none]

theorem Accounted.msrs {origin m : Machine} (h : Accounted origin m) (msr : UInt32) :
    m.msrs msr = (lastStored msr (since origin.history m.history)).getD (origin.msrs msr) := by
  obtain ⟨events, hevents⟩ := h
  have hheld : m.holdings.msrs msr = (lastStored msr events).getD (origin.holdings.msrs msr) := by
    rw [hevents.holdings]
    exact Holdings.replay_msrs msr events origin.holdings
  rw [hevents.since_eq]
  exact hheld

/-! ### What operations write -/

/-- Own events that write a request at most, and leave for it. -/
def OnlyRequests (self : List Event) : Prop :=
  ∀ msr value, .writeMsr msr value ∈ self →
    msr = Ghcb.msr ∧ ∃ purpose shown, .exit .vmgexit purpose shown ∈ self

theorem onlyRequests_of_forall {self : List Event} (h : ∀ msr value, .writeMsr msr value ∉ self) :
    OnlyRequests self := fun msr value hmem => (h msr value hmem).elim

theorem onlyRequests_tenor : Tenor OnlyRequests where
  nothing := onlyRequests_of_forall fun _ _ => List.not_mem_nil
  append := by
    intro self more hself hmore msr value hmem
    rcases List.mem_append.mp hmem with hin | hin
    · obtain ⟨hmsr, purpose, shown, hexit⟩ := hself msr value hin
      exact ⟨hmsr, purpose, shown, List.mem_append_left _ hexit⟩
    · obtain ⟨hmsr, purpose, shown, hexit⟩ := hmore msr value hin
      exact ⟨hmsr, purpose, shown, List.mem_append_right _ hexit⟩
  mild := by
    intro event hmild
    refine onlyRequests_of_forall fun msr value hmem => ?_
    obtain rfl := List.mem_singleton.mp hmem
    cases hmild
  request := by
    intro request purpose shown msr value hmem
    have hwrite : Event.writeMsr msr value = .writeMsr Ghcb.msr request := by simpa using hmem
    have hmsr : msr = Ghcb.msr := by injection hwrite
    exact ⟨hmsr, purpose, shown, by simp⟩

/-- Every operation but a plain write writes requests only, at whatever depth it
is served. -/
theorem runStep_onlyRequests (settings : Settings) (depth : Nat) (step : Step)
    (hplain : ∀ msr value, step ≠ .writeMsr msr value) (m : Machine) :
    OnlyRequests (own (since m.history ((runStep settings (serve settings depth) step).run m).2.history)) := by
  have hother {event : Event} (h : ∀ msr value, event ≠ .writeMsr msr value) : OnlyRequests [event] :=
    onlyRequests_of_forall fun msr value hmem => h msr value (List.mem_singleton.mp hmem).symm
  exact runStep_own settings onlyRequests_tenor depth {
    pause := fun _ => hother fun _ _ => nofun
    write := fun msr value hstep => (hplain msr value hstep).elim
    talk := fun _ event htalk => hother fun msr value hwrite => by rw [hwrite] at htalk; cases htalk
    spin := fun _ => hother fun _ _ => nofun } m

/-! ### Runs -/

theorem runStep_readMsr (settings : Settings) (server : Server) (msr : UInt32) (m : Machine) :
    (runStep settings server (.readMsr msr)).run m =
      (.value (m.msrs msr), m.recording (.readMsr msr (m.msrs msr))) := by
  have hcode (m : Machine) : (carryOut settings server (.readMsr msr)).run.run m =
      (.ok (.value ((readMsr msr).run m).1), ((readMsr msr).run m).2) := rfl
  rw [runStep_run, hcode, readMsr_run]
  rfl

theorem runStep_writeMsr (settings : Settings) (server : Server) (msr : UInt32) (value : UInt64) (m : Machine) :
    (runStep settings server (.writeMsr msr value)).run m =
      (.done, { m.recording (.writeMsr msr value) with msrs := assign m.msrs msr value }) := by
  have hcode (m : Machine) : (carryOut settings server (.writeMsr msr value)).run.run m =
      (.ok .done, ((writeMsr msr value).run m).2) := rfl
  rw [runStep_run, hcode, writeMsr_run]
  rfl

/-- **An MSR holds what was last stored in it.** After a run of any steps from
any machine, and so after each of them, it holds the value last stored by the
events of the run, or else what it held at first; the same goes for every step
and every handler inside the run, counted from where it began. A read finds the
value last stored by the events before it, and gives it to its caller; right
after a write that is the value written. Beside a plain write no step writes,
among its own events, an MSR other than the one for requests, and that one only
if it leaves by VMGEXIT. -/
theorem msrs_hold_last_stored (settings : Settings) (m : Machine) (steps : List Step) :
    let events := (run settings m steps).flatMap (·.events)
    (∀ msr, ((reports settings steps).run m).2.msrs msr = (lastStored msr events).getD (m.msrs msr)) ∧
      (∀ before msr value later, events = before ++ .readMsr msr value :: later →
        value = (lastStored msr before).getD (m.msrs msr)) ∧
      (∀ depth step inner msr,
        let after := ((runStep settings (serve settings depth) step).run inner).2
        after.msrs msr = (lastStored msr (since inner.history after.history)).getD (inner.msrs msr)) ∧
      (∀ depth regs inner msr,
        let after := ((serve settings depth regs).run inner).2
        after.msrs msr = (lastStored msr (since inner.history after.history)).getD (inner.msrs msr)) ∧
      (∀ server msr inner, (runStep settings server (.readMsr msr)).run inner =
        (.value (inner.msrs msr), inner.recording (.readMsr msr (inner.msrs msr)))) ∧
      (∀ server msr value inner,
        let written := ((runStep settings server (.writeMsr msr value)).run inner).2
        ((runStep settings server (.readMsr msr)).run written).1 = .value value) ∧
      ∀ depth step inner, (∀ msr value, step ≠ .writeMsr msr value) →
        let self := own (since inner.history ((runStep settings (serve settings depth) step).run inner).2.history)
        ∀ msr value, .writeMsr msr value ∈ self →
          msr = 0xc0010130 ∧ ∃ purpose shown, .exit .vmgexit purpose shown ∈ self := by
  intro events
  have haccount : Account m events ((reports settings steps).run m).2 := reports_account settings steps m
  have hkept (origin : Machine) : Kept (SameAccounted origin) settings settings := kept_accounted settings
  refine ⟨?runs, ?reads, ?steps, ?handlers, ?read, ?written, ?operations⟩
  case runs =>
    intro msr
    have hevents : since m.history ((reports settings steps).run m).2.history = events := haccount.since_eq
    have hmsr := Accounted.msrs ⟨events, haccount⟩ msr
    rw [hevents] at hmsr
    exact hmsr
  case reads =>
    intro before msr value later hevents
    have hfitting := haccount.fitting
    rw [hevents] at hfitting
    have hread : value = (m.holdings.replay before).msrs msr := hfitting.fits
    rw [hread]
    exact Holdings.replay_msrs msr before m.holdings
  case steps =>
    intro depth step inner msr
    exact (accounted_run ((hkept inner).runStep ((hkept inner).serve depth) step) ⟨[], .refl inner⟩).msrs msr
  case handlers =>
    intro depth regs inner msr
    exact (accounted_run ((hkept inner).serve depth regs) ⟨[], .refl inner⟩).msrs msr
  case read => exact runStep_readMsr settings
  case written =>
    intro server msr value inner written
    have hwritten : written.msrs msr = value := by
      rw [show written = _ from congrArg Prod.snd (runStep_writeMsr settings server msr value inner)]
      exact assign_same inner.msrs msr value
    rw [runStep_readMsr, hwritten]
  case operations => exact fun depth step inner hplain => runStep_onlyRequests settings depth step hplain inner

/-- A call whose handler sets an MSR from outside and then has it written, with a
value that has its middle bit and those above it set; then the MSR is read. -/
theorem msrs_hold_last_stored_by_handler :
    let settings : Settings := ⟨false, 1, 1, 0x400000⟩
    let call : Step := .call ⟨7, [], by decide⟩
    let m := start settings 0x10 [] [] true [[.msr 0x10 5, .run (.writeMsr 0x10 0xffffffff80000000)]]
    let events := (run settings m [call, .readMsr 0x10]).flatMap (·.events)
    let self := own (since m.history ((runStep settings (serve settings 1) call).run m).2.history)
    ((reports settings [call, .readMsr 0x10]).run m).2.msrs 0x10 = 0xffffffff80000000 ∧
      (lastStored 0x10 (events.take 7)).getD (m.msrs 0x10) = 0xffffffff80000000 ∧
      ∃ purpose shown, .exit .vmgexit purpose shown ∈ self := by
  intro settings call m events self
  obtain ⟨hruns, hreads, -, -, -, -, hoperations⟩ := msrs_hold_last_stored settings m [call, .readMsr 0x10]
  have hstored : (lastStored 0x10 events).getD (m.msrs 0x10) = 0xffffffff80000000 := by decide +kernel
  have hread := hreads (events.take 7) 0x10 0xffffffff80000000 [] (by decide +kernel)
  have hrequest := hoperations 1 call m nofun 0xc0010130 0x16 (by decide +kernel)
  exact ⟨(hruns 0x10).trans hstored, hread.symm, hrequest.2⟩

end Machine
end SyscallGate
