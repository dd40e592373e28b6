/-
# What routing does with a call

Routing asks for the privilege class, lets one instruction leave, and does
nothing else to the registers: what it overwrites in between was put aside, and
comes back in the opposite order. So it is the same as `Processor.passOn`, which
puts nothing aside (`route_run`). That holds of every processor, whatever its
monad does: one that serves the instruction by routing calls of its own has its
state threaded through the one instruction (`route_leaves_once`).

Key definitions: `Processor.passOn`.
Key theorems: `route_run`, `route_leaves_once`.
-/
import SyscallGate.Proofs.SaveArea
import SyscallGate.Recorder

namespace SyscallGate

variable {m : Type → Type} [Monad m]

/-- Routing with nothing to put aside: the class is asked for, and the registers
are handed over as they were staged. -/
def Processor.passOn (processor : Processor m) (regs : Registers) : m (Route × Registers) := do
  match ← processor.callerClass with
  | .reduced =>
    let after ← processor.syscall regs
    return (.direct, after)
  | .mostPrivileged =>
    processor.writeMsr 0xc0010130 0x16
    let after ← processor.vmgexit regs
    return (.redirect, after)

theorem joinHalves_runRequest :
    joinHalves (upperHalf (Ghcb.runRequest .vmpl0)).toUInt64 (lowerHalf (Ghcb.runRequest .vmpl0)).toUInt64
      = 0x16 := by
  decide

theorem liftM_ok {α : Type} (a : α) :
    (liftM (Except.ok a : Except Fault α) : ExceptT Fault m α) = pure a := rfl

theorem run_liftM_bind [LawfulMonad m] {ε α β : Type} (x : m α) (f : α → ExceptT ε m β) :
    (liftM x >>= f).run = x >>= fun a => (f a).run :=
  ExceptT.run_bind_lift x f

/-- **Routing hands the registers over as they are.** The save area takes the
words that routing overwrites and gives each back to its register. -/
theorem route_run [LawfulMonad m] (processor : Processor m) (regs : Registers) :
    (route processor regs).run = Except.ok <$> processor.passOn regs := by
  obtain ⟨one, hone, h1⟩ := SaveArea.push_of_holds regs.rflags SaveArea.holds_empty (by simp)
  obtain ⟨two, htwo, h2⟩ := SaveArea.push_of_holds regs.rax h1 (by simp)
  obtain ⟨three, hthree, h3⟩ := SaveArea.push_of_holds regs.rcx h2 (by simp)
  obtain ⟨four, hfour, h4⟩ := SaveArea.push_of_holds regs.rdx h3 (by simp)
  -- all four come off in ring 0, in the opposite order
  obtain ⟨_, hrdx, g3⟩ := SaveArea.pop_of_holds h4
  obtain ⟨_, hrcx, g2⟩ := SaveArea.pop_of_holds g3
  obtain ⟨_, hrax, g1⟩ := SaveArea.pop_of_holds g2
  obtain ⟨_, hflags, g0⟩ := SaveArea.pop_of_holds g1
  -- the other rings have put only two aside
  obtain ⟨_, hrax', k1⟩ := SaveArea.pop_of_holds h2
  obtain ⟨_, hflags', k0⟩ := SaveArea.pop_of_holds k1
  simp only [route, hone, htwo, liftM_ok, pure_bind, run_liftM_bind, Processor.passOn, map_bind]
  refine bind_congr fun answer => ?_
  cases answer with
  | reduced =>
    simp only [hrax', hflags', liftM_ok, pure_bind, SaveArea.expectEmpty_of_holds k0, Registers.putFlag,
      run_liftM_bind, ExceptT.run_pure, map_bind, map_pure]
  | mostPrivileged =>
    simp only [hthree, hfour, hrdx, hrcx, hrax, hflags, liftM_ok, pure_bind, SaveArea.expectEmpty_of_holds g0,
      Registers.putFlag, run_liftM_bind, joinHalves_runRequest, ExceptT.run_pure, map_bind, map_pure]
    rfl

/-- **One question, one instruction that leaves.** The state after routing, and
the registers, are those that the instruction left; the request is the only
other thing done, and only in ring 0. -/
theorem route_leaves_once {σ : Type} [LawfulMonad m] (processor : Processor (StateT σ m))
    (regs : Registers) (before : σ) :
    (route processor regs).run.run before = (do
      match ← processor.callerClass.run before with
      | (.reduced, asked) =>
        let (after, left) ← (processor.syscall regs).run asked
        return (.ok (.direct, after), left)
      | (.mostPrivileged, asked) =>
        let ((), written) ← (processor.writeMsr 0xc0010130 0x16).run asked
        let (after, left) ← (processor.vmgexit regs).run written
        return (.ok (.redirect, after), left)) := by
  rw [route_run, StateT.run_map, Processor.passOn, StateT.run_bind, map_bind]
  refine bind_congr fun ⟨answer, asked⟩ => ?_
  cases answer with
  | reduced => simp only [StateT.run_bind, StateT.run_pure, map_bind, map_pure]
  | mostPrivileged => simp only [StateT.run_bind, StateT.run_pure, map_bind, map_pure]

open Recorder in
/-- A processor that makes a call of its own in the middle: every register is
in use, and the zero flag set, when the outer call leaves. -/
theorem route_leaves_once_reentrant :
    let regs : Registers := ⟨39, 1, 2, 0xffffffffffffffff, 4, 5, 6, 7, 8, 0x246⟩
    (route (processor .bySelector (serve .bySelector 2)) regs).run.run
      (Recorder.start 0x10 [[.call (Registers.stage 7 []), .register (.take .rdi .rax)],
        [.register (.set .rax 5), .selector 0x33]]) =
    (.ok (.redirect, regs.set .rdi 5),
      ⟨0x33, [], [.returned .redirect (Registers.stage 5 []), .vmgexit (Registers.stage 7 []),
        .writeMsr 0xc0010130 0x16, .classify 0x10 .mostPrivileged,
        .vmgexit regs, .writeMsr 0xc0010130 0x16, .classify 0x10 .mostPrivileged]⟩) :=
  (route_leaves_once (processor .bySelector (serve .bySelector 2)) _ _).trans rfl

end SyscallGate
