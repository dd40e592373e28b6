/-
# Every exit has its request

The MSR that a request is written to is there for everybody: handlers write it,
calls in the middle of a call write it, and so does a termination that a
handler asks for. An exit finds its own request there all the same, since
nothing happens between the two, and a call leaves by the instruction of the
ring that it leaves from (`run_leaves_as_requested`). What the machine holds at
an exit is read off the events before it; at the end of a run they explain what
it holds then.

Key theorems: `Machine.reports_account`, `Machine.run_leaves_as_requested`.
-/
import SyscallGate.Proofs.Machine.Replay

namespace SyscallGate
namespace Machine

variable (settings : Settings)

theorem report_account (step : Step) (m : Machine) :
    Account m ((report settings step).run m).1.events ((report settings step).run m).2 := by
  obtain ⟨events, hevents⟩ := runStep_account settings step m
  have hreported : ((report settings step).run m).1.events = events := hevents.since_eq
  rw [hreported]
  exact hevents

theorem reports_account : ∀ (steps : List Step) (m : Machine),
    Account m ((run settings m steps).flatMap (·.events)) ((reports settings steps).run m).2
  | [], m => .refl m
  | step :: steps, m => (report_account settings step m).append (reports_account steps _)

/-- **Every exit finds its request.** In a run of any steps, from any machine,
each event fits what the machine holds when it happens. -/
theorem run_leaves_as_requested (m : Machine) (steps : List Step) :
    let events := (run settings m steps).flatMap (·.events)
    (∀ before event later, events = before ++ event :: later → event.Fits (m.holdings.replay before)) ∧
      ((reports settings steps).run m).2.holdings = m.holdings.replay events := by
  intro events
  have haccount : Account m events ((reports settings steps).run m).2 := reports_account settings steps m
  refine ⟨fun before event later hevents => ?_, haccount.holdings⟩
  have hfitting := haccount.fitting
  rw [hevents] at hfitting
  exact hfitting.fits

/-- Three calls. A handler terminates the guest in the middle of the first, then
clears the request and drops to ring 3; the second call is made from there, and
its handler goes back to ring 0 for the third. -/
theorem run_leaves_as_requested_around_termination :
    let settings : Settings := ⟨false, 1, 1, 0x400000⟩
    let call : Step := .call ⟨7, [], by decide⟩
    let m := start settings 0x10 [] [] true
      [[.run (.terminate 15 13), .msr 0xc0010130 0, .selector 0x33], [], [.selector 0x10]]
    let events := (run settings m [call, call, call]).flatMap (·.events)
    events.length = 16 ∧
      (Event.exit .vmgexit .call [(.rax, 7)]).Fits (m.holdings.replay (events.take 2)) ∧
      (Event.exit .vmgexit (.terminate 15 13) []).Fits (m.holdings.replay (events.take 5)) ∧
      (Event.exit .syscall .call [(.rax, 7)]).Fits (m.holdings.replay (events.take 11)) ∧
      (Event.exit .vmgexit .call [(.rax, 7)]).Fits (m.holdings.replay (events.take 15)) := by
  intro settings call m events
  obtain ⟨hfits, -⟩ := run_leaves_as_requested settings m [call, call, call]
  refine ⟨by decide +kernel, hfits _ _ (events.drop 3) ?_, hfits _ _ (events.drop 6) ?_,
    hfits _ _ (events.drop 12) ?_, hfits _ _ [] ?_⟩ <;> decide +kernel

end Machine
end SyscallGate
