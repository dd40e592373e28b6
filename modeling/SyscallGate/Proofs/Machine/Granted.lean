/-
# The console's lock is always granted

Code prints before it terminates the guest, and whoever serves the termination
may print as well, while the step that asked for it never goes on. So a lock
that was held where code leaves would never be given up, and the next to print
would wait for it forever. It never is held there: it is free wherever a step
leaves, halts, begins or ends, at whatever depth, and so nobody waits for it
(`console_free_outside_talks`). A PAUSE is executed by who asks for one.

Key theorems: `Machine.kept_atRest`, `Machine.runStep_noPause`,
`Machine.console_free_outside_talks`.
-/
import SyscallGate.Proofs.Machine.Muted
import SyscallGate.Proofs.Machine.Own

namespace SyscallGate
namespace Machine

/-! ### Wherever code leaves -/

/-- One machine on both sides, with its console at rest. -/
def SameAtRest (m n : Machine) : Prop := n = m ∧ AtRest m.console

theorem lockstep_atRest {α : Type} {x : StateM Machine α} (hx : ∀ m, (x.run m).2.console = m.console) :
    Lockstep SameAtRest x x := by
  rintro _ m ⟨rfl, hrest⟩
  exact ⟨rfl, rfl, (hx m).symm ▸ hrest⟩

theorem plain_atRest : Plain SameAtRest where
  haltsLeft := by rintro m _ ⟨rfl, -⟩; rfl
  pausesLeft := by rintro m _ ⟨rfl, -⟩; rfl
  script := by rintro m _ ⟨rfl, -⟩; rfl
  setHalts := by rintro m _ _ ⟨rfl, hrest⟩; exact ⟨rfl, hrest⟩
  setPauses := by rintro m _ _ ⟨rfl, hrest⟩; exact ⟨rfl, hrest⟩
  halted := lockstep_atRest fun _ => rfl
  paused := lockstep_atRest fun _ => rfl
  entered := lockstep_atRest fun _ => rfl
  nextHandler := lockstep_atRest fun ⟨_, _, _, _, _, script, _, _, _⟩ => by cases script <;> rfl
  setSelector _ := lockstep_atRest fun _ => rfl
  setMsr _ _ := lockstep_atRest fun _ => rfl
  readSelector := lockstep_atRest fun _ => rfl
  readMsr _ := lockstep_atRest fun _ => rfl
  writeMsr _ _ := lockstep_atRest fun _ => rfl

/-- **Whoever serves a step finds the console at rest**, and leaves it so. -/
theorem kept_atRest (settings : Settings) : Kept SameAtRest settings settings := by
  refine plain_atRest.kept_of_exit rfl rfl rfl (fun _ _ _ => lockstep_atRest fun _ => rfl)
    (fun _ _ _ => lockstep_atRest fun _ => rfl) ?print ?setUpConsole
  case print =>
    rintro text _ m ⟨rfl, hrest⟩
    cases settings.verbose with
    | false => exact ⟨rfl, rfl, hrest⟩
    | true =>
      obtain ⟨written, -, hrun⟩ := print_run hrest text
      rw [hrun]
      exact ⟨rfl, rfl, hrest.passed rfl⟩
  case setUpConsole =>
    rintro _ m ⟨rfl, hrest⟩
    cases settings.verbose with
    | false => exact ⟨rfl, rfl, hrest⟩
    | true =>
      obtain ⟨control, input, written, hrun, -⟩ := setUpConsole_run hrest
      rw [hrun]
      exact ⟨rfl, rfl, hrest.passed rfl⟩

/-! ### Who pauses -/

theorem noPause_tenor : Tenor fun self => Event.pause ∉ self where
  nothing := List.not_mem_nil
  append hself hmore hmem := (List.mem_append.mp hmem).elim hself hmore
  mild := by
    intro event hmild hmem
    obtain rfl := List.mem_singleton.mp hmem
    cases hmild
  request value purpose shown hmem := by simp at hmem

theorem runStep_noPause (settings : Settings) (depth : Nat) (step : Step) (m : Machine)
    (hpause : .pause ∈ own (since m.history ((runStep settings (serve settings depth) step).run m).2.history)) :
    step = .pause := by
  by_contra hother
  have hcovers : Covers (fun self => Event.pause ∉ self) step := {
    pause := fun hstep => (hother hstep).elim
    write := fun msr value _ => by simp
    talk := fun _ event htalk hmem => by obtain rfl := List.mem_singleton.mp hmem; cases htalk
    spin := fun _ => by simp }
  exact runStep_own settings noPause_tenor depth hcovers m hpause

/-- **The console's lock is free wherever code leaves, halts, begins or ends.**
In a run of any steps, from any start, that is so before each event that is of
no talk, and before each grant of the lock; so there is no wait for it in the
run, and it is free after it. The console is what the events make of it. Of
whoever serves a step it does not matter what he would do with the lock held:
two that differ only there serve it in the same way. Whoever follows the script
leaves the console at rest, at whatever depth. And a PAUSE among a step's own
events is there because the step was to pause. -/
theorem console_free_outside_talks (settings : Settings) (selector : UInt16) (msrs : List (UInt32 × UInt64))
    (input : List UInt8) (serialReady : Bool) (script : List (List Action)) (steps : List Step) :
    let m := start settings selector msrs input serialReady script
    let events := (run settings m steps).flatMap (·.events)
    let last := ((reports settings steps).run m).2
    (∀ before event later, events = before ++ event :: later → event.isTalk = false →
        (replayConsole m.console before).isFree = true) ∧
      (∀ before later, events = before ++ .locked :: later → (replayConsole m.console before).isFree = true) ∧
      .spin ∉ events ∧
      last.console = replayConsole m.console events ∧ last.console.isFree = true ∧
      (∀ server server' : Server,
        (∀ regs inner, AtRest inner.console → (server regs).run inner = (server' regs).run inner ∧
          AtRest ((server regs).run inner).2.console) →
        ∀ step inner, AtRest inner.console →
          (runStep settings server step).run inner = (runStep settings server' step).run inner ∧
            AtRest ((runStep settings server step).run inner).2.console) ∧
      (∀ depth regs inner, AtRest inner.console → AtRest ((serve settings depth regs).run inner).2.console) ∧
      ∀ depth step inner,
        .pause ∈ own (since inner.history ((runStep settings (serve settings depth) step).run inner).2.history) →
          step = .pause := by
  intro m events last
  have hrest : AtRest m.console := ⟨rfl, rfl⟩
  have hstart : Counterpart (fun _ => True) m [] m m := .refl hrest fun _ _ => trivial
  obtain ⟨-, -, hlast⟩ := reports_counterpart settings trivial steps hstart
  have htold : Told (fun _ => True) m.console.value.ready events last.console.value.ready := hlast.told
  refine ⟨?outside, ?granted, htold.spin_not_mem, hlast.console, hlast.rest.free, ?served, ?script,
    runStep_noPause settings⟩
  case outside =>
    intro before event later hevents hregular
    obtain ⟨between, hbefore, -⟩ := htold.regular_at hregular hevents
    exact (hbefore.atRest hrest rfl).1.free
  case granted =>
    intro before later hevents
    obtain ⟨between, hbefore⟩ := htold.locked_at hevents
    exact (hbefore.atRest hrest rfl).1.free
  case served =>
    intro server server' hservers step inner hinner
    have hcompanions : Companions SameAtRest server server' := by
      rintro regs _ m ⟨rfl, hm⟩
      obtain ⟨hsame, hafter⟩ := hservers regs m hm
      exact ⟨congrArg Prod.fst hsame, congrArg Prod.snd hsame.symm, hafter⟩
    obtain ⟨hresult, hsame, hafter⟩ := (kept_atRest settings).runStep hcompanions step inner inner ⟨rfl, hinner⟩
    exact ⟨Prod.ext hresult hsame.symm, hafter⟩
  case script =>
    intro depth regs inner hinner
    exact ((kept_atRest settings).serve depth regs inner inner ⟨rfl, hinner⟩).2.2

/-- A message, then a termination whose handler prints a message of its own before
the guest halts. -/
theorem console_free_outside_talks_while_terminating :
    let settings : Settings := ⟨true, 1, 1, 0x400000⟩
    let m := start settings 0x10 [] [] true [[.run (.print "b")]]
    let events := (run settings m [.print "a", .terminateGeneral]).flatMap (·.events)
    events.length = 13 ∧
      -- at the exit, where the handler prints, and at the HLT
      (replayConsole m.console (events.take 5)).isFree = true ∧
      (replayConsole m.console (events.take 7)).isFree = true ∧
      (replayConsole m.console (events.take 12)).isFree = true := by
  intro settings m events
  obtain ⟨hfree, hgranted, -⟩ := console_free_outside_talks settings 0x10 [] [] true [[.run (.print "b")]]
    [.print "a", .terminateGeneral]
  refine ⟨by decide +kernel, hfree _ (.exit .vmgexit (.terminate 15 0) []) (events.drop 6) ?_ rfl,
    hgranted _ (events.drop 8) ?_, hfree _ .halt [] ?_ rfl⟩ <;> decide +kernel

end Machine
end SyscallGate
