/-
# Relations between machines that a whole run keeps

Handlers run steps, and steps are served by handlers, to any depth. `Kept` says
what a relation between two machines owes to that: each operation that steps
and handlers are made of is in lockstep, the next handler is the same and those
left are as many, and the budget for HLTs and PAUSEs is the same. Then every step
is in lockstep, and everything that serves it (`Stepwise.runStep`, `Kept.handle`).
The two sides may run under settings of their own. Steps alone need less, whoever
serves them: two machines with different handlers may still be `Stepwise`. And
what a single step is made of is less again: for a relation that not all of it
keeps, `Operations.carryOut` tells the steps apart that wait, write an MSR, or
talk.

Key definitions: `Machine.Step.talks`, `Machine.Operations`,
`Machine.Stepwise`, `Machine.Kept`.
Key theorems: `Machine.Operations.carryOut`, `Machine.Stepwise.carryOut`,
`Machine.Stepwise.runStep`, `Machine.Kept.serve`, `Machine.Kept.handle`.
-/
import SyscallGate.Proofs.Lockstep
import SyscallGate.Proofs.Machine.Gate

namespace SyscallGate
namespace Machine

/-- A machine with that budget. -/
def withBudget (m : Machine) (haltsLeft pausesLeft : Nat) : Machine := { m with haltsLeft, pausesLeft }

/-- Servers in lockstep: they leave the same registers. -/
def Companions (R : Machine → Machine → Prop) (server server' : Server) : Prop :=
  ∀ regs, Lockstep R (server regs) (server' regs)

/-- Whether a step may talk to the console. -/
def Step.talks : Step → Bool
  | routeImage none | startUp | serialSetUp | print _ | printHex _ => true
  | _ => false

/-- What a relation owes to the operations of steps: to what they read, where they
halt, and how they leave. -/
structure Operations (R : Machine → Machine → Prop) : Prop where
  setSelector : ∀ selector, Lockstep R (setSelector selector) (setSelector selector)
  setMsr : ∀ msr value, Lockstep R (setMsr msr value) (setMsr msr value)
  readSelector : Lockstep R readSelector readSelector
  readMsr : ∀ msr, Lockstep R (readMsr msr) (readMsr msr)
  halt : Lockstep R halt.run halt.run
  -- what leaves
  gate : ∀ {server server'}, Companions R server server' → ∀ window regs,
    Lockstep R (gate server window regs) (gate server' window regs)
  terminate : ∀ {server server'}, Companions R server server' → ∀ {α : Type} reasonSet reasonCode,
    Lockstep R (terminate server reasonSet reasonCode : Exec α).run
      (terminate server' reasonSet reasonCode : Exec α).run
  request : ∀ {server server'}, Companions R server server' →
    Lockstep R (vmgexit server .request) (vmgexit server' .request)

/-- What a relation owes to steps under `settings`, and others under `settings'`,
whoever serves them. -/
structure Stepwise (R : Machine → Machine → Prop) (settings settings' : Settings) : Prop extends Operations R where
  /-- Steps may halt and pause equally often. -/
  halts : settings.halts = settings'.halts
  pauses : settings.pauses = settings'.pauses
  /-- The code they enter lies at one address. -/
  entry : settings.entry = settings'.entry
  haltsLeft : ∀ {m n}, R m n → m.haltsLeft = n.haltsLeft
  pausesLeft : ∀ {m n}, R m n → m.pausesLeft = n.pausesLeft
  budget : ∀ {m n} (haltsLeft pausesLeft : Nat), R m n →
    R (m.withBudget haltsLeft pausesLeft) (n.withBudget haltsLeft pausesLeft)
  -- what else steps do
  writeMsr : ∀ msr value, Lockstep R (writeMsr msr value) (writeMsr msr value)
  pause : Lockstep R pause.run pause.run
  print : ∀ text, Lockstep R (print settings.verbose text).run (print settings'.verbose text).run
  setUpConsole : Lockstep R (setUpConsole settings.verbose).run (setUpConsole settings'.verbose).run
  -- what handlers do
  enter : Lockstep R (record .enter) (record .enter)
  /-- Only results that steps come to are written down. -/
  leave : ∀ server step (n : Machine),
    Lockstep R (record (.leave ((runStep settings' server step).run n).1))
      (record (.leave ((runStep settings' server step).run n).1))

/-- What a relation owes to a run under `settings`, and another under
`settings'`, both of one script. -/
structure Kept (R : Machine → Machine → Prop) (settings settings' : Settings) : Prop
    extends Stepwise R settings settings' where
  script : ∀ {m n}, R m n → m.script.length = n.script.length
  nextHandler : Lockstep R nextHandler nextHandler

/-- What a step came to, if it was stopped or not. -/
def Result.ofExcept : Except Stop Result → Result
  | .ok result => result
  | .error stop => .stopped stop

theorem runStep_run (settings : Settings) (server : Server) (step : Step) (m : Machine) :
    (runStep settings server step).run m =
      let (result, after) := (carryOut settings server step).run.run
        (m.withBudget settings.halts settings.pauses)
      (.ofExcept result, after.withBudget m.haltsLeft m.pausesLeft) := by
  rw [runStep]
  generalize (carryOut settings server step).run = code
  change StateT.run (match (code.run (m.withBudget settings.halts settings.pauses)).1 with
    | .ok result => Pure.pure result
    | .error stop => Pure.pure (.stopped stop) : StateM Machine Result)
      ((code.run (m.withBudget settings.halts settings.pauses)).2.withBudget m.haltsLeft m.pausesLeft) = _
  rcases code.run (m.withBudget settings.halts settings.pauses) with ⟨stop | result, after⟩ <;> rfl

theorem report_run (settings : Settings) (step : Step) (m : Machine) :
    (report settings step).run m =
      let (result, after) := (runStep settings (handle settings) step).run m
      (⟨result, since m.history after.history⟩, after) := rfl

namespace Operations

variable {R : Machine → Machine → Prop} (o : Operations R) {settings settings' : Settings}
  {server server' : Server} (hs : Companions R server server')

include o hs

theorem through {step : Step} {window : Exit → Window} {regs : Registers}
    {finish : Exit × Registers → Result} (h : step.Through window regs finish) :
    Lockstep R (carryOut settings server step).run (carryOut settings' server' step).run := by
  rw [h, h]
  exact (o.gate hs window regs).map _

theorem startUp (entry : UInt64)
    (print : ∀ text, Lockstep R (print settings.verbose text).run (print settings'.verbose text).run)
    (setUpConsole : Lockstep R (setUpConsole settings.verbose).run (setUpConsole settings'.verbose).run) :
    Lockstep R (startUp settings.verbose entry server).run (startUp settings'.verbose entry server').run := by
  refine .run_bind setUpConsole fun _ => .run_bind (.run_lift (o.readMsr _)) fun status => ?_
  by_cases hactive : status &&& Ghcb.snpActive = 0
  · rw [if_pos hactive, if_pos hactive]
    exact .run_bind (print _) fun _ => .run_bind (o.terminate hs _ _) fun _ => print _
  · rw [if_neg hactive, if_neg hactive]
    exact print _

/-- **Every step is in lockstep, if its server is**, and if what it does beside
its operations is: waiting, writing an MSR for its caller, and talking. -/
theorem carryOut (entry : settings.entry = settings'.entry) : ∀ step : Step,
    (step = .pause → Lockstep R pause.run pause.run) →
    (∀ msr value, step = .writeMsr msr value → Lockstep R (writeMsr msr value) (writeMsr msr value)) →
    (step.talks → (∀ text, Lockstep R (print settings.verbose text).run (print settings'.verbose text).run) ∧
      Lockstep R (setUpConsole settings.verbose).run (setUpConsole settings'.verbose).run) →
    Lockstep R (carryOut settings server step).run (carryOut settings' server' step).run
  | .entryCode regs, _, _, _ => o.through hs (Step.entryCode_through regs)
  | .route regs, _, _, _ => o.through hs (Step.route_through regs)
  | .routeImage (some regs), _, _, _ => o.through hs (Step.routeImage_through regs)
  | .routeImage none, _, _, talk => .run_bind (.run_bind ((talk rfl).1 _) fun _ => .pure _) fun _ => .pure _
  | .call call, _, _, _ => o.through hs (Step.call_through call)
  | .typedCall call, _, _, _ => o.through hs (Step.typedCall_through call)
  | .classify, _, _, _ => .run_bind (.run_lift (o.readSelector.bind fun _ => .pure _)) fun _ =>
      .run_bind (.run_lift o.readSelector) fun _ => .pure _
  | .readMsr msr, _, _, _ => .run_bind (.run_lift (o.readMsr msr)) fun _ => .pure _
  | .writeMsr msr value, _, write, _ => .run_bind (.run_lift (write msr value rfl)) fun _ => .pure _
  | .vmgexit, _, _, _ => .run_bind (.run_lift (o.request hs)) fun _ => .pure _
  | .pause, pause, _, _ => .run_bind (pause rfl) fun _ => .pure _
  | .halt, _, _, _ => .run_bind o.halt fun _ => .pure _
  | .terminate reasonSet reasonCode, _, _, _ => o.terminate hs reasonSet reasonCode
  | .terminateGeneral, _, _, _ => o.terminate hs _ _
  | .terminateNotSnp, _, _, _ => o.terminate hs _ _
  | .startUp, _, _, talk => by
    rw [Machine.carryOut, Machine.carryOut, ← entry]
    exact .run_bind (o.startUp hs settings.entry (talk rfl).1 (talk rfl).2) fun _ => .pure _
  | .serialSetUp, _, _, talk => .run_bind (talk rfl).2 fun _ => .pure _
  | .print text, _, _, talk => .run_bind ((talk rfl).1 text) fun _ => .pure _
  | .printHex _, _, _, talk => .run_bind ((talk rfl).1 _) fun _ => .pure _
  | .portWrite _ _, _, _, _ => .pure (Except.ok (Result.written true))
  | .setSelector selector, _, _, _ => .run_bind (.run_lift (o.setSelector selector)) fun _ => .pure _
  | .setMsr msr value, _, _, _ => .run_bind (.run_lift (o.setMsr msr value)) fun _ => .pure _
  | .addresses, _, _, _ => by
    rw [Machine.carryOut, Machine.carryOut, ← entry]
    exact .pure _

end Operations

namespace Stepwise

variable {R : Machine → Machine → Prop} {settings settings' : Settings} (k : Stepwise R settings settings')
  {server server' : Server}

include k

/-- **Every step is in lockstep, if its server is.** -/
theorem carryOut (hs : Companions R server server') (step : Step) :
    Lockstep R (carryOut settings server step).run (carryOut settings' server' step).run :=
  k.toOperations.carryOut hs k.entry step (fun _ => k.pause) (fun msr value _ => k.writeMsr msr value)
    fun _ => ⟨k.print, k.setUpConsole⟩

/-- **Every step runs in lockstep**, on its own budget and on what is left of
the outer one. -/
theorem runStep (hs : Companions R server server') (step : Step) :
    Lockstep R (runStep settings server step) (runStep settings' server' step) := by
  intro m n h
  obtain ⟨hresult, hafter⟩ := k.carryOut hs step _ _ (k.budget settings.halts settings.pauses h)
  rw [runStep_run, runStep_run, ← k.halts, ← k.pauses, ← k.haltsLeft h, ← k.pausesLeft h]
  exact ⟨congrArg Result.ofExcept hresult, k.budget m.haltsLeft m.pausesLeft hafter⟩

theorem perform (hs : Companions R server server') (h : Handling) : ∀ action : Action,
    Lockstep R (perform settings server h action) (perform settings' server' h action)
  | .register _ => .pure _
  | .selector selector => (k.setSelector selector).bind fun _ => .pure _
  | .msr msr value => (k.setMsr msr value).bind fun _ => .pure _
  | .run step => k.enter.bind fun _ => (k.runStep hs step).bind_value fun n =>
      (k.leave server' step n).bind fun _ => .pure _

end Stepwise

namespace Kept

variable {R : Machine → Machine → Prop} {settings settings' : Settings} (k : Kept R settings settings')

include k

/-- **So is every server that follows the script**, by induction on how deep
steps may nest. -/
theorem serve : ∀ depth : Nat, Companions R (serve settings depth) (serve settings' depth)
  | 0, _ => .pure _
  | depth + 1, regs => by
    refine k.nextHandler.bind fun handler => ?_
    cases handler with
    | none => exact .pure _
    | some actions => exact (Lockstep.foldlM (k.perform (serve depth)) actions _).bind fun _ => .pure _

theorem handle : Companions R (handle settings) (handle settings') := by
  intro regs
  refine .get_bind fun m n h => ?_
  rw [k.script h]
  exact k.serve _ regs m n h

end Kept

end Machine
end SyscallGate
