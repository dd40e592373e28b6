/-
# The entry code leaves with the core it was entered with

Every jump of the code goes forward, so a call runs through one of two paths.
Each stretch of a path is a function of the core and at most one question to
the surroundings (`run_classify`, `run_request`), and what it puts aside it
restores (`run_native`, `run_restore`). Together: the selector is read once, a
request is written in ring 0 and only there, and SYSCALL or VMGEXIT finds all
registers, the flags and the stack pointer as they were (`call_eq`). Two or
four words below the stack pointer are all that was written, so the address to
return to is still there (`call_leaves_intact`).

Key definitions: `EntryCode.Core.testRing`, `EntryCode.Core.loadRequest`,
`EntryCode.Intact`, `EntryCode.KeepsStack`.
Key theorems: `EntryCode.call_eq`, `EntryCode.call_leaves_intact`.
-/
import SyscallGate.Proofs.EntryCode.Spilled

namespace SyscallGate
namespace EntryCode

/-! ### The code, a stretch at a time -/

/-- The core with the selector read into RAX and its ring bits tested. -/
def Core.testRing (core : Core) (selector : UInt16) : Core :=
  let rax := (core.regs.rax &&& ~~~0xffff) ||| selector.toUInt64
  let ring := rax.toUInt8 &&& 3
  (core.set .rax rax).set .rflags (Flags.ofResult core.regs.rflags ring (ring == 0) (0x80 ≤ ring))

/-- The core with the request loaded into the registers that WRMSR reads. -/
def Core.loadRequest (core : Core) : Core :=
  let loaded := ((core.set .rcx Ghcb.msr.toUInt64).set .rax Ghcb.runCode.toUInt32.toUInt64).set .rdx 0
  loaded.set .rflags (Flags.ofResult core.regs.rflags 0 true false)

theorem Spilled.testRing {entry core : Core} {written saved : List Register}
    (h : Spilled entry written saved core) (hrax : .rax ∈ saved) (hflags : .rflags ∈ saved)
    (selector : UInt16) : Spilled entry written saved (core.testRing selector) :=
  (h.set hrax _ nofun).set hflags _ fun _ => Flags.ofResult_same _ _ _ _

theorem Spilled.loadRequest {entry core : Core} {written saved : List Register}
    (h : Spilled entry written saved core) (hrdx : .rdx ∈ saved) (hrcx : .rcx ∈ saved)
    (hrax : .rax ∈ saved) (hflags : .rflags ∈ saved) : Spilled entry written saved core.loadRequest :=
  (((h.set hrcx _ nofun).set hrax _ nofun).set hrdx _ nofun).set hflags _ fun _ =>
    Flags.ofResult_same _ _ _ _

theorem ring_of_read (rax : UInt64) (selector : UInt16) :
    ((rax &&& ~~~0xffff) ||| selector.toUInt64).toUInt8 = selector.toUInt8 := by
  have hmask : (~~~0xffff : UInt64).toUInt8 = 0 := rfl
  rw [UInt64.toUInt8_or, UInt64.toUInt8_and, hmask, UInt8.and_zero, UInt8.zero_or,
    UInt16.toUInt8_toUInt64]

theorem ring_eq_zero_iff (selector : UInt16) : selector.toUInt8 &&& 3 = 0 ↔ selector &&& 3 = 0 := by
  have hbyte := Nat.and_two_pow_sub_one_eq_mod selector.toUInt8.toNat 2
  have hword := Nat.and_two_pow_sub_one_eq_mod selector.toNat 2
  rw [← UInt8.toNat_inj, ← UInt16.toNat_inj, UInt8.toNat_and, UInt16.toNat_and]
  simp only [UInt16.toNat_toUInt8] at *
  simp at *
  omega

/-- The zero flag after the test says whether the selector names ring 0. -/
theorem testRing_zero (core : Core) (selector : UInt16) :
    (core.testRing selector).regs.rflags &&& Flags.zero = 0 ↔ selector &&& 3 ≠ 0 := by
  have hzero := Flags.ofResult_and_zero core.regs.rflags (selector.toUInt8 &&& 3)
    (selector.toUInt8 &&& 3 == 0) (0x80 ≤ selector.toUInt8 &&& 3)
  have hflags : (core.testRing selector).regs.rflags = Flags.ofResult core.regs.rflags
      (selector.toUInt8 &&& 3) (selector.toUInt8 &&& 3 == 0) (0x80 ≤ selector.toUInt8 &&& 3) := by
    rw [Core.testRing, ring_of_read]
    rfl
  rw [hflags, hzero, Ne, ← ring_eq_zero_iff]
  by_cases hring : selector.toUInt8 &&& 3 = 0
  · simp [hring, Flags.zero]
  · simp [hring]

theorem loadRequest_low (core : Core) : core.loadRequest.low .rcx = 0xc0010130 := by
  change lowerHalf Ghcb.msr.toUInt64 = _
  decide

/-- EDX:EAX is the request to run level 0. -/
theorem loadRequest_joinHalves (core : Core) :
    joinHalves (core.loadRequest.low .rdx).toUInt64 (core.loadRequest.low .rax).toUInt64 = 0x16 := by
  change joinHalves (lowerHalf 0).toUInt64 (lowerHalf Ghcb.runCode.toUInt32.toUInt64).toUInt64 = _
  decide

section Run

variable {m : Type → Type} [Monad m] (around : Surroundings m)

theorem run_step {number : Nat} {instruction : Instruction} (steps : Nat) (core : Core)
    (h : code[number]? = some instruction) :
    run around (steps + 1) core (.inside number) =
      exec around number core instruction >>= fun after => run around steps after.1 after.2 := by
  rw [run, h]

theorem run_outside (steps : Nat) (core : Core) (address : UInt64) :
    run around steps core (.outside address) = pure (core, .outside address) := by
  cases steps <;> rfl

variable [LawfulMonad m]

theorem run_silent {number : Nat} {instruction : Instruction} {core core' : Core} {place : Place}
    (steps : Nat) (h : code[number]? = some instruction)
    (he : exec around number core instruction = pure (core', place)) :
    run around (steps + 1) core (.inside number) = run around steps core' place := by
  rw [run_step around steps core h, he, pure_bind]

/-- The selector is asked for, and decides where the code goes on. -/
theorem run_classify (steps : Nat) (core : Core) :
    run around (steps + 5) core (.inside 0) = (do
      let selector ← around.selector
      run around steps (((core.push core.regs.rflags).push core.regs.rax).testRing selector)
        (.inside (if selector &&& 3 = 0 then 5 else native))) := by
  rw [run_silent around _ (rfl : code[0]? = some .pushFlags) rfl,
    run_silent around _ (rfl : code[1]? = some (.push .rax)) rfl,
    run_step around _ _ (rfl : code[2]? = some .readSelector), exec, bind_assoc]
  refine bind_congr fun selector => ?_
  rw [pure_bind, run_silent around _ (rfl : code[3]? = some (.testLow 3)) rfl,
    run_silent around _ (rfl : code[4]? = some (.jumpNotZero native)) rfl]
  change run around steps (((core.push core.regs.rflags).push core.regs.rax).testRing selector) (.inside
    (if (((core.push core.regs.rflags).push core.regs.rax).testRing selector).regs.rflags &&& Flags.zero = 0
      then native else 5)) = _
  congr 2
  by_cases hring : selector &&& 3 = 0
  · rw [if_pos hring, if_neg (mt (testRing_zero _ _).mp (not_not_intro hring))]
  · rw [if_neg hring, if_pos ((testRing_zero _ _).mpr hring)]

/-- The path of the most privileged ring writes the request, with RCX and RDX saved as well. -/
theorem run_request (steps : Nat) (core : Core) :
    run around (steps + 6) core (.inside 5) = (do
      around.writeMsr 0xc0010130 0x16
      run around steps ((core.push core.regs.rcx).push core.regs.rdx).loadRequest (.inside 11)) := by
  rw [run_silent around _ (rfl : code[5]? = some (.push .rcx)) rfl,
    run_silent around _ (rfl : code[6]? = some (.push .rdx)) rfl,
    run_silent around _ (rfl : code[7]? = some (.load .rcx _)) rfl,
    run_silent around _ (rfl : code[8]? = some (.load .rax _)) rfl,
    run_silent around _ (rfl : code[9]? = some (.clear .rdx)) rfl,
    run_step around _ _ (rfl : code[10]? = some .writeMsr), exec, bind_assoc]
  let loaded := ((core.push core.regs.rcx).push core.regs.rdx).loadRequest
  have hnumber : loaded.low .rcx = 0xc0010130 := loadRequest_low _
  have hrequest : joinHalves (loaded.low .rdx).toUInt64 (loaded.low .rax).toUInt64 = 0x16 := loadRequest_joinHalves _
  change around.writeMsr (loaded.low .rcx)
    (joinHalves (loaded.low .rdx).toUInt64 (loaded.low .rax).toUInt64) >>= _ = _
  rw [hnumber, hrequest]
  simp only [pure_bind]
  rfl

/-- From there all four registers are restored. -/
theorem run_restore (steps : Nat) {entry core : Core}
    (h : Spilled entry [.rdx, .rcx, .rax, .rflags] [.rdx, .rcx, .rax, .rflags] core) :
    run around (steps + 4) core (.inside 11) =
      run around steps (entry.under [.rdx, .rcx, .rax, .rflags]) (.inside 15) := by
  have hrdx := h.pop (by decide) (by decide)
  have hrcx := hrdx.pop (by decide) (by decide)
  have hrax := hrcx.pop (by decide) (by decide)
  have hflags := hrax.popFlags (by decide) (by decide)
  rw [run_silent around _ (rfl : code[11]? = some (.pop .rdx)) rfl,
    run_silent around _ (rfl : code[12]? = some (.pop .rcx)) rfl,
    run_silent around _ (rfl : code[13]? = some (.pop .rax)) rfl,
    run_silent around _ (rfl : code[14]? = some .popFlags) rfl, hflags.eq_under]

theorem run_native (steps : Nat) {entry core : Core}
    (h : Spilled entry [.rax, .rflags] [.rax, .rflags] core) :
    run around (steps + 2) core (.inside native) =
      run around steps (entry.under [.rax, .rflags]) (.inside 19) := by
  have hrax := h.pop (by decide) (by decide)
  have hflags := hrax.popFlags (by decide) (by decide)
  rw [run_silent around _ (rfl : code[native]? = some (.pop .rax)) rfl,
    run_silent around _ (rfl : code[native + 1]? = some .popFlags) rfl, hflags.eq_under]
  rfl

theorem run_ret (steps : Nat) (core : Core) :
    run around (steps + 1) core (.inside exit) = pure (core.drop, .outside core.top) := by
  rw [run_silent around _ (rfl : code[exit]? = some .ret) rfl, run_outside]

theorem run_vmgexit (steps : Nat) (core : Core) :
    run around (steps + 3) core (.inside 15) = (do
      let after ← around.vmgexit core
      return (after.drop, .outside after.top)) := by
  rw [run_step around _ _ (rfl : code[15]? = some .vmgexit), exec, bind_assoc]
  refine bind_congr fun after => ?_
  rw [pure_bind, run_silent around _ (rfl : code[16]? = some (.jump exit)) rfl, run_ret]

theorem run_syscall (steps : Nat) (core : Core) :
    run around (steps + 2) core (.inside 19) = (do
      let after ← around.syscall core
      return (after.drop, .outside after.top)) := by
  rw [run_step around _ _ (rfl : code[19]? = some .syscall), exec, bind_assoc]
  refine bind_congr fun after => ?_
  rw [pure_bind]
  exact run_ret around steps after

/-- **The code asks for the selector, leaves once, and returns.** It leaves with
the core it was entered with, but for the words below the stack pointer. -/
theorem call_eq (entry : Core) :
    call around entry = (do
      let selector ← around.selector
      if selector &&& 3 = 0 then
        around.writeMsr 0xc0010130 0x16
        let after ← around.vmgexit (entry.under [.rdx, .rcx, .rax, .rflags])
        return (after.drop, .outside after.top)
      else
        let after ← around.syscall (entry.under [.rax, .rflags])
        return (after.drop, .outside after.top)) := by
  have hsaved := ((Spilled.start entry).push (by decide : Register.rflags ∉ [])).push
    (by decide : Register.rax ∉ _)
  rw [call, show code.length = 16 + 5 from rfl, run_classify]
  refine bind_congr fun selector => ?_
  have hasked := hsaved.testRing (by decide) (by decide) selector
  by_cases hring : selector &&& 3 = 0
  · have hall := (hasked.push (by decide : Register.rcx ∉ _)).push (by decide : Register.rdx ∉ _)
    have hloaded := hall.loadRequest (by decide) (by decide) (by decide) (by decide)
    rw [if_pos hring, if_pos hring, show 16 = 10 + 6 from rfl, run_request]
    refine bind_congr fun _ => ?_
    exact (run_restore around 6 hloaded).trans (run_vmgexit around 3 _)
  · rw [if_neg hring, if_neg hring]
    exact (run_native around 14 hasked).trans (run_syscall around 12 _)

end Run

/-! ### What the caller sees -/

/-- A core that differs from the one at the entry in the first slots below the
stack pointer only. -/
structure Intact (entry : Core) (slots : Nat) (core : Core) : Prop where
  regs : core.regs = entry.regs
  stackPointer : core.stackPointer = entry.stackPointer
  stack : ∀ address, (∀ i < slots, address ≠ entry.slot i) → core.stack address = entry.stack address

theorem intact_under (entry : Core) (written : List Register) :
    Intact entry written.length (entry.under written) where
  regs := rfl
  stackPointer := rfl
  stack address h := entry.spill_stack_other _ (by simpa using h)

/-- Whoever serves an instruction gives the stack pointer back, and the words at
and above it. -/
structure KeepsStack (left after : Core) : Prop where
  stackPointer : after.stackPointer = left.stackPointer
  stack : ∀ address, left.stackPointer ≤ address → after.stack address = left.stack address

/-- The address to return to is out of reach of the slots. -/
theorem Intact.top {entry left after : Core} {slots : Nat} (h : Intact entry slots left)
    (hs : slots < 2 ^ 60) (hk : KeepsStack left after) : after.top = entry.top := by
  rw [Core.top, hk.stackPointer, hk.stack _ (UInt64.le_refl _), h.stackPointer, Core.top]
  exact h.stack _ fun i hi => entry.stackPointer_ne_slot (Nat.lt_trans hi hs)

/-- **Every register, the flags and the stack pointer reach the instruction that
leaves.** -/
theorem call_leaves_intact {m : Type → Type} [Monad m] [LawfulMonad m] (around : Surroundings m)
    (entry : Core) :
    ∃ direct redirect : Core, Intact entry 2 direct ∧ Intact entry 4 redirect ∧
      call around entry = (do
        let selector ← around.selector
        if selector &&& 3 = 0 then
          around.writeMsr 0xc0010130 0x16
          let after ← around.vmgexit redirect
          return (after.drop, .outside after.top)
        else
          let after ← around.syscall direct
          return (after.drop, .outside after.top)) ∧
      ∀ left after, left = direct ∨ left = redirect → KeepsStack left after →
        after.drop = { after with stackPointer := entry.stackPointer + 8 } ∧
          after.top = entry.stack entry.stackPointer := by
  have hdirect : Intact entry 2 _ := intact_under entry [.rax, .rflags]
  have hredirect : Intact entry 4 _ := intact_under entry [.rdx, .rcx, .rax, .rflags]
  refine ⟨_, _, hdirect, hredirect, call_eq around entry, fun left after hleft hk => ?_⟩
  rcases hleft with rfl | rfl
  · exact ⟨by rw [Core.drop, hk.stackPointer, hdirect.stackPointer], hdirect.top (by decide) hk⟩
  · exact ⟨by rw [Core.drop, hk.stackPointer, hredirect.stackPointer], hredirect.top (by decide) hk⟩

/-- Surroundings in ring 0 that note what is written, and serve VMGEXIT by a
value in RAX. -/
def noting : Surroundings (StateM (List (UInt32 × UInt64))) where
  selector := return 0x10
  writeMsr msr value := modify ((msr, value) :: ·)
  syscall core := return core
  vmgexit core := return core.set .rax 7

/-- A stack pointer so low that the slots lie on both sides of address zero, and
every flag set. -/
theorem call_leaves_intact_around_zero :
    let entry : Core := ⟨⟨39, 1, 2, 3, 4, 5, 6, 7, 8, 0xffffffffffffffff⟩, 0x10, (· + 0x400ff0)⟩
    let ((after, place), written) := (call noting entry).run []
    after.regs = entry.regs.set .rax 7 ∧ place = .outside 0x401000 ∧ written = [(0xc0010130, 0x16)] := by
  intro entry
  obtain ⟨_, redirect, _, hintact, hcall, hreturn⟩ := call_leaves_intact noting entry
  have hkeeps : KeepsStack redirect (redirect.set .rax 7) := ⟨rfl, fun _ _ => rfl⟩
  obtain ⟨-, htop⟩ := hreturn _ _ (.inr rfl) hkeeps
  rw [hcall]
  have haddress : entry.stack entry.stackPointer = 0x401000 := by decide
  refine ⟨?_, congrArg Place.outside (htop.trans haddress), rfl⟩
  change redirect.regs.set .rax 7 = _
  rw [hintact.regs]

end EntryCode
end SyscallGate
