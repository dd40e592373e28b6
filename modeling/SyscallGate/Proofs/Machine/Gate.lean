/-
# The five ways in are one gate

A system call is made through the entry code, by routing, by routing for a
caller in memory, or at a call site, and each has code of its own. What they do
to the machine is the same: the selector is read, the request is written in
ring 0, and the call leaves through a window (`gate`). The ways differ in the
window, and in what becomes of the registers that come back.

Key definitions: `Machine.approach`, `Machine.gate`, `Machine.Step.Through`.
Key theorems: `Machine.callEntry_eq_gate`, `Machine.routeStaged_run`,
`Machine.Step.entryCode_through`, `Machine.Step.route_through`,
`Machine.Step.routeImage_through`, `Machine.Step.call_through`,
`Machine.Step.typedCall_through`.
-/
import SyscallGate.Machine.Run
import SyscallGate.Proofs.EntryCode
import SyscallGate.Proofs.Privilege
import SyscallGate.Proofs.Register.Image
import SyscallGate.Proofs.Routing

namespace SyscallGate
namespace Machine

/-- The way of a call that leaves by that instruction. -/
def Exit.route : Exit → Route
  | syscall => .direct
  | vmgexit => .redirect

/-- What happens before a call leaves: the selector is read, and in ring 0 the
request is written. -/
def approach : StateM Machine Exit := do
  let selector ← readSelector
  if selector &&& 3 = 0 then
    writeMsr 0xc0010130 0x16
    return .vmgexit
  else return .syscall

/-- The machine with one more event written down. -/
def recording (m : Machine) (event : Event) : Machine := { m with history := event :: m.history }

theorem approach_run (m : Machine) :
    approach.run m = StateT.run (if m.selector &&& 3 = 0 then
        (fun _ => Exit.vmgexit) <$> writeMsr 0xc0010130 0x16
      else pure Exit.syscall) (m.recording (.readSelector m.selector)) := rfl

section Gate

variable (server : Server)

/-- One call through the window of the instruction that it leaves by. -/
def gate (window : Exit → Window) (regs : Registers) : StateM Machine (Exit × Registers) := do
  let kind ← approach
  let after ← leaveFor server kind .call (window kind) regs
  return (kind, after)

/-- The call is served when it is known by which instruction it leaves, and
that was written down. -/
theorem gate_run (window : Exit → Window) (regs : Registers) (m : Machine) :
    (gate server window regs).run m =
      let (kind, near) := approach.run m
      let leaving := Event.exit kind .call ((window kind).shown.map fun r => (r, regs.get r))
      let (after, left) := (server (kind.handOver ((window kind).look regs))).run
        (near.recording leaving)
      ((kind, (window kind).takeBack regs after), left) := rfl

theorem callEntry_eq_gate (window : Window) (regs : Registers) :
    callEntry server window regs = Prod.snd <$> gate server (fun _ => window) regs := by
  rw [callEntry, EntryCode.call_eq, gate, approach]
  simp only [surroundings, bind_assoc, map_bind, map_pure]
  refine bind_congr fun selector => ?_
  by_cases hring : selector &&& 3 = 0
  · simp only [if_pos hring, bind_assoc, pure_bind]
    rfl
  · simp only [if_neg hring, bind_assoc, pure_bind]
    rfl

theorem hardware_passOn (regs : Registers) :
    (hardware server).passOn regs =
      (fun (kind, after) => (kind.route, after)) <$> gate server Window.ofRoute regs := by
  rw [Processor.passOn, gate, approach]
  simp only [hardware, callerClass, bind_assoc, map_bind, map_pure, pure_bind]
  refine bind_congr fun selector => ?_
  rw [CallerClass.ofRing_ofSelector, CallerClass.ofSelector, show ringMask = 3 from rfl]
  by_cases hring : selector &&& 3 = 0
  · simp only [if_pos hring, bind_assoc, pure_bind]
    rfl
  · simp only [if_neg hring, pure_bind]
    rfl

theorem routeStaged_run (regs : Registers) :
    (routeStaged server regs).run =
      (fun (kind, after) => .ok (kind.route, after)) <$> gate server Window.ofRoute regs := by
  rw [routeStaged, orStop, route_run, hardware_passOn, ExceptT.run_mk, ← comp_map, map_eq_pure_bind,
    bind_assoc, map_eq_pure_bind]
  simp only [pure_bind, Function.comp_apply]

end Gate

/-! ### Steps that go through the gate -/

namespace Step

/-- A step that makes one call through the gate, and of what comes back makes
its result. -/
def Through (step : Step) (window : Exit → Window) (regs : Registers)
    (finish : Exit × Registers → Result) : Prop :=
  ∀ settings server, (carryOut settings server step).run = (.ok ∘ finish) <$> gate server window regs

/-- Of the flags only the loadable ones are shown by the entry code. -/
theorem entryCode_through (regs : Registers) :
    (Step.entryCode regs).Through (fun _ => .whole)
      { regs with rflags := Flags.load Flags.idle regs.rflags } fun p => .registers p.2 := by
  intro settings server
  rw [carryOut, callLoaded, callEntry_eq_gate, run_liftM_bind, bind_map_left, map_eq_pure_bind]
  rfl

theorem route_through (regs : Registers) :
    (Step.route regs).Through .ofRoute regs fun p => .routed p.1.route p.2 := by
  intro settings server
  rw [carryOut, ExceptT.run_bind, routeStaged_run, bind_map_left, map_eq_pure_bind]
  rfl

theorem routeImage_through (regs : Registers) :
    (Step.routeImage (some regs)).Through .ofRoute regs
      fun p => .answered p.2.returned.toInt64 (some p.2) := by
  intro settings server
  rw [carryOut, Option.map_some, Machine.routeImage, Image.decode_encode, bind_assoc, ExceptT.run_bind,
    routeStaged_run, bind_map_left, map_eq_pure_bind]
  refine bind_congr fun p => ?_
  have hmemory : some (Image.encode p.2).decode = some p.2 := congrArg some (Image.decode_encode p.2)
  exact congrArg (fun regs => (pure (.ok (.answered p.2.returned.toInt64 regs)) :
    StateM Machine (Except Stop Result))) hmemory

theorem call_through (call : Call) :
    (Step.call call).Through (fun _ => .ofCall call) call.staged fun p => .returned p.2.returned := by
  intro settings server
  rw [carryOut, callSite, callEntry_eq_gate, bind_map_left, run_liftM_bind, bind_assoc,
    map_eq_pure_bind]
  simp only [pure_bind]
  rfl

/-- Typed operands are words before anything else happens. -/
theorem typedCall_through (call : TypedCall) :
    (Step.typedCall call).Through (fun _ => .ofCall call.toCall) call.toCall.staged
      fun p => .returned p.2.returned :=
  call_through call.toCall

end Step

end Machine
end SyscallGate
