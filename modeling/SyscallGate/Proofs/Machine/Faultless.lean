/-
# Nothing fails without messages

Faults are of the serial port's addresses, and of a save area that is used up.
The latter never happens, and a build without messages has no port to talk to
that was set up, so its steps come to a result or are stopped in a halt
(`carryOut_faultless`). That code does no more is closed under sequences
(`Yields`), as it is shown for single instructions.

Key definitions: `Machine.Settings.muted`, `Machine.Result.isFault`,
`Machine.Yields`.
Key theorems: `Machine.carryOut_faultless`, `Machine.runStep_faultless`.
-/
import SyscallGate.Proofs.Machine.Console
import SyscallGate.Proofs.Machine.Kept

namespace SyscallGate
namespace Machine

/-- The settings of the build without messages. -/
def Settings.muted (settings : Settings) : Settings := { settings with verbose := false }

/-- Whether a step came to nothing because of a fault. -/
def Result.isFault : Result → Bool
  | stopped (.fault _) => true
  | _ => false

/-- Code that comes to a value with a property, or is stopped in a halt: there is
no fault in it. -/
def Yields {α : Type} (x : Exec α) (good : α → Prop) : Prop :=
  ∀ m, (∃ a, (x.run.run m).1 = .ok a ∧ good a) ∨ (x.run.run m).1 = .error .halted

namespace Yields

variable {α β : Type} {good : α → Prop} {good' : β → Prop}

theorem pure {a : α} (h : good a) : Yields (Pure.pure a) good := fun _ => .inl ⟨a, rfl, h⟩

theorem stop : Yields (throw .halted) good := fun _ => .inr rfl

theorem lift (x : StateM Machine α) : Yields (liftM x) fun _ => True := fun m => .inl ⟨(x.run m).1, rfl, trivial⟩

theorem get_bind {f : Machine → Exec α} (h : ∀ m, Yields (f m) good) : Yields (get >>= f) good :=
  fun m => h m m

theorem bind {x : Exec α} {f : α → Exec β} (hx : Yields x good) (hf : ∀ a, good a → Yields (f a) good') :
    Yields (x >>= f) good' := by
  intro m
  obtain ⟨a, hvalue, ha⟩ | hstop := hx m
  · rw [run_bind_ok (Prod.ext hvalue rfl)]
    exact hf a ha _
  · rw [run_bind_error (Prod.ext hstop rfl)]
    exact .inr rfl

/-- A value that is not looked at. -/
theorem andThen {x : Exec α} {f : α → Exec β} (hx : Yields x fun _ => True) (hf : ∀ a, Yields (f a) good') :
    Yields (x >>= f) good' := hx.bind fun a _ => hf a

end Yields

section Faultless

variable {α : Type} {good : α → Prop}

theorem halt_yields : Yields halt fun _ => True := by
  refine .andThen (.lift _) fun _ => .get_bind fun m => ?_
  match m.haltsLeft with
  | 0 | 1 => exact .stop
  | _ + 2 => exact .lift _

theorem pause_yields : Yields pause fun _ => True := by
  refine .andThen (.lift _) fun _ => .get_bind fun m => ?_
  match m.pausesLeft with
  | 0 | 1 => exact .stop
  | _ + 2 => exact .lift _

theorem haltTimes_yields : ∀ count : Nat, Yields (haltTimes count : Exec α) good
  | 0 => .stop
  | count + 1 => .andThen halt_yields fun _ => haltTimes_yields count

variable (server : Server)

theorem terminate_yields (reasonSet reasonCode : UInt64) :
    Yields (terminate server reasonSet reasonCode : Exec α) good :=
  .andThen (.lift _) fun _ => .andThen (.lift _) fun _ => .get_bind fun _ => haltTimes_yields _

theorem startUp_yields (entry : UInt64) : Yields (startUp false entry server) fun _ => True := by
  refine .andThen (.pure trivial) fun _ => .andThen (.lift _) fun status => ?_
  by_cases hactive : status &&& Ghcb.snpActive = 0
  · rw [if_pos hactive]
    exact .andThen (.pure trivial) fun _ =>
      .andThen (terminate_yields server _ _) fun _ => .pure trivial
  · rw [if_neg hactive]
    exact .pure trivial

theorem through_yields {step : Step} {window : Exit → Window} {regs : Registers}
    {finish : Exit × Registers → Result} (settings : Settings) (h : step.Through window regs finish)
    (hfinish : ∀ p, (finish p).isFault = false) :
    Yields (carryOut settings server step) (·.isFault = false) := by
  intro m
  rw [h]
  exact .inl ⟨_, rfl, hfinish _⟩

/-- **Without messages no step comes to a fault**, whoever serves it. -/
theorem carryOut_faultless (settings : Settings) : ∀ step : Step,
    Yields (carryOut settings.muted server step) (·.isFault = false)
  | .entryCode regs => through_yields server _ (Step.entryCode_through regs) fun _ => rfl
  | .route regs => through_yields server _ (Step.route_through regs) fun _ => rfl
  | .routeImage (some regs) => through_yields server _ (Step.routeImage_through regs) fun _ => rfl
  | .routeImage none => .pure rfl
  | .call call => through_yields server _ (Step.call_through call) fun _ => rfl
  | .typedCall call => through_yields server _ (Step.typedCall_through call) fun _ => rfl
  | .classify => .andThen (.lift _) fun _ => .andThen (.lift _) fun _ => .pure rfl
  | .readMsr _ => .andThen (.lift _) fun _ => .pure rfl
  | .writeMsr _ _ => .andThen (.lift _) fun _ => .pure rfl
  | .vmgexit => .andThen (.lift _) fun _ => .pure rfl
  | .pause => .andThen pause_yields fun _ => .pure rfl
  | .halt => .andThen halt_yields fun _ => .pure rfl
  | .terminate reasonSet reasonCode => terminate_yields server reasonSet reasonCode
  | .terminateGeneral => terminate_yields server _ _
  | .terminateNotSnp => terminate_yields server _ _
  | .startUp => .andThen (startUp_yields server _) fun _ => .pure rfl
  | .serialSetUp => .pure rfl
  | .print _ => .pure rfl
  | .printHex _ => .pure rfl
  | .portWrite _ _ => .pure rfl
  | .setSelector _ => .andThen (.lift _) fun _ => .pure rfl
  | .setMsr _ _ => .andThen (.lift _) fun _ => .pure rfl
  | .addresses => .pure rfl

theorem runStep_faultless (settings : Settings) (step : Step) (m : Machine) :
    ((runStep settings.muted server step).run m).1.isFault = false := by
  rw [runStep_run]
  obtain ⟨result, hresult, hfine⟩ | hstop := carryOut_faultless server settings step
    (m.withBudget settings.muted.halts settings.muted.pauses)
  · exact (congrArg (·.isFault) (congrArg Result.ofExcept hresult)).trans hfine
  · exact congrArg (·.isFault) (congrArg Result.ofExcept hstop)

end Faultless

end Machine
end SyscallGate
