/-
# What a handler does to registers

Whoever serves a call works on the register set the call left with, and has at
hand the set that the last call of its own came back with. Its actions write
one register each: a word, a sum, another register, or a register of that last
set.

Key definitions: `Handling`, `RegisterAction`, `RegisterAction.apply`,
`RegisterAction.target`.
Key theorems: `RegisterAction.get_apply_other`.
-/
import SyscallGate.Register

namespace SyscallGate

/-- The register set being served, and the one the handler's own last call left. -/
structure Handling where
  regs : Registers
  last : Registers
  deriving DecidableEq, Repr

/-- A handler that starts on `regs` and has made no call of its own. -/
def Handling.start (regs : Registers) : Handling := ⟨regs, Registers.zero⟩

/-- One write to the register set being served. -/
inductive RegisterAction where
  /-- The register gets the word. -/
  | set (r : Register) (word : UInt64)
  /-- The word is added to the register, modulo `2 ^ 64`. -/
  | add (r : Register) (word : UInt64)
  /-- The register gets what the source holds. -/
  | copy (r source : Register)
  /-- The register gets what the source holds in the last set. -/
  | take (r source : Register)
  deriving DecidableEq, Repr

namespace RegisterAction

/-- The register an action writes. -/
def target : RegisterAction → Register
  | set r _ | add r _ | copy r _ | take r _ => r

/-- The register set after the action. -/
def apply (h : Handling) : RegisterAction → Registers
  | set r word => h.regs.set r word
  | add r word => h.regs.set r (h.regs.get r + word)
  | copy r source => h.regs.set r (h.regs.get source)
  | take r source => h.regs.set r (h.last.get source)

/-- An action writes one register. -/
theorem get_apply_other (h : Handling) {action : RegisterAction} {r : Register} (hr : r ≠ action.target) :
    (action.apply h).get r = h.regs.get r := by
  cases action <;> exact Registers.get_set_other _ _ hr

end RegisterAction
end SyscallGate
