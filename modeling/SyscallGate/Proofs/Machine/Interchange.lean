/-
# Steps that come to the same stand for each other

A step may be put for another wherever the other stands, if the two are carried
out alike whoever serves them: in the run, in every handler of the script, and in
the handlers of what those run. The script is the only place where a machine
holds steps, and no instruction but the one that takes a handler off it looks
there. So single steps are in lockstep as they are; with a handler the steps
that it runs are exchanged, and that is no matter to them
(`Machine.run_mapSteps`).

Key definitions: `Machine.Action.mapStep`, `Machine.mapSteps`, `Machine.Alike`.
Key theorems: `Machine.handle_mapSteps`, `Machine.report_mapSteps`,
`Machine.run_mapSteps`.
-/
import SyscallGate.Proofs.Machine.Instructions

namespace SyscallGate
namespace Machine

/-- An action with another step to run. -/
def Action.mapStep (f : Step → Step) : Action → Action
  | .run step => .run (f step)
  | action => action

/-- A machine with other steps in its script. -/
def mapSteps (m : Machine) (f : Step → Step) : Machine :=
  { m with script := m.script.map (List.map (Action.mapStep f)) }

/-- Every step is carried out like the one put for it. -/
def Alike (settings : Settings) (f : Step → Step) : Prop :=
  ∀ server step, carryOut settings server (f step) = carryOut settings server step

variable {f : Step → Step}

/-! ### Without the script -/

section

variable (f)

theorem record_mapSteps (event : Event) :
    Lockstep (fun m n => n = m.mapSteps f) (record event) (record event) := by
  rintro m _ rfl
  exact ⟨rfl, rfl⟩

theorem bare_mapSteps : Bare fun m n => n = m.mapSteps f where
  haltsLeft := by rintro m _ rfl; rfl
  pausesLeft := by rintro m _ rfl; rfl
  setHalts := by rintro m _ _ rfl; rfl
  setPauses := by rintro m _ _ rfl; rfl
  halted := record_mapSteps f _
  paused := record_mapSteps f _
  entered := record_mapSteps f _
  setSelector := by rintro selector m _ rfl; exact ⟨rfl, rfl⟩
  setMsr := by rintro msr value m _ rfl; exact ⟨rfl, rfl⟩
  readSelector := by rintro m _ rfl; exact ⟨rfl, rfl⟩
  readMsr := by rintro msr m _ rfl; exact ⟨rfl, rfl⟩
  writeMsr := by rintro msr value m _ rfl; exact ⟨rfl, rfl⟩

theorem talking_mapSteps : Talking fun m n => n = m.mapSteps f where
  pausesLeft := by rintro m _ rfl; rfl
  console := by rintro m _ rfl; rfl
  setPauses := by rintro m _ _ rfl; rfl
  setConsole := by rintro m _ _ rfl; rfl
  spin := record_mapSteps f _
  note event _ _ := record_mapSteps f event
  portIn := by
    rintro port ⟨selector, msrs, input, written, console, script, haltsLeft, pausesLeft, history⟩ _ rfl
    cases input <;> exact ⟨rfl, rfl⟩
  portOut := by rintro port byte m _ rfl; exact ⟨rfl, rfl⟩

theorem stepwise_mapSteps (settings : Settings) : Stepwise (fun m n => n = m.mapSteps f) settings settings :=
  (bare_mapSteps f).stepwise_of_exit rfl rfl rfl (fun _ _ _ => record_mapSteps f _) (fun _ _ _ => record_mapSteps f _)
    ((talking_mapSteps f).print settings.verbose) ((talking_mapSteps f).setUpConsole settings.verbose)

end

/-! ### With it -/

section

variable {settings : Settings} (alike : Alike settings f)

include alike

theorem runStep_map (server : Server) (step : Step) :
    runStep settings server (f step) = runStep settings server step := by
  rw [runStep, runStep, alike]

theorem perform_mapStep (server : Server) (h : Handling) (action : Action) :
    perform settings server h (action.mapStep f) = perform settings server h action := by
  cases action with
  | register _ | selector _ | msr _ _ => rfl
  | run step =>
    rw [Action.mapStep, perform, runStep_map alike]
    rfl

/-- A handler acts as it did, and its companion with other steps to run acts like it. -/
theorem actions_mapSteps {server : Server} (hs : Companions (fun m n => n = m.mapSteps f) server server)
    (handler : List Action) (h : Handling) :
    Lockstep (fun m n => n = m.mapSteps f) (handler.foldlM (perform settings server) h)
      ((handler.map (Action.mapStep f)).foldlM (perform settings server) h) := by
  have hmap : (handler.map (Action.mapStep f)).foldlM (perform settings server) h =
      handler.foldlM (perform settings server) h := by
    rw [List.foldlM_map]
    exact congrArg (handler.foldlM · h) (funext₂ (perform_mapStep alike server))
  rw [hmap]
  exact Lockstep.foldlM ((stepwise_mapSteps f settings).perform hs) handler h

/-- Whoever serves by the script takes the handler with the other steps. -/
theorem serve_mapSteps : ∀ depth : Nat,
    Companions (fun m n => n = m.mapSteps f) (serve settings depth) (serve settings depth)
  | 0, _ => .pure _
  | depth + 1, regs => by
    rintro ⟨selector, msrs, input, written, console, script, haltsLeft, pausesLeft, history⟩ _ rfl
    cases script with
    | nil => exact ⟨rfl, rfl⟩
    | cons handler script =>
      exact ((actions_mapSteps alike (serve_mapSteps depth) handler (.start regs)).map Handling.regs) _ _ rfl

theorem handle_mapSteps :
    Companions (fun m n => n = m.mapSteps f) (handle settings) (handle settings) := by
  intro regs
  refine .get_bind ?_
  rintro m _ rfl
  rw [mapSteps, List.length_map]
  exact serve_mapSteps alike m.script.length regs m _ rfl

theorem report_mapSteps (step : Step) :
    Lockstep (fun m n => n = m.mapSteps f) (report settings step) (report settings (f step)) := by
  rintro m _ rfl
  have hrun := ((stepwise_mapSteps f settings).runStep (handle_mapSteps alike) step).run_map m
  rw [report_run, report_run, runStep_map alike, hrun]
  exact ⟨rfl, rfl⟩

theorem reports_mapSteps : ∀ steps : List Step,
    Lockstep (fun m n => n = m.mapSteps f) (reports settings steps) (reports settings (steps.map f))
  | [] => .pure _
  | step :: steps => (report_mapSteps alike step).bind fun _ => (reports_mapSteps steps).bind fun _ => .pure _

/-- **Steps may be put for others that they are carried out like**, in a run and
anywhere in the script, and every report stays the same. -/
theorem run_mapSteps (m : Machine) (steps : List Step) :
    run settings (m.mapSteps f) (steps.map f) = run settings m steps :=
  (reports_mapSteps alike steps m _ rfl).1.symm

end

end Machine
end SyscallGate
