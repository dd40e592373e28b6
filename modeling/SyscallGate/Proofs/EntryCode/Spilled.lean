/-
# Registers that the entry code puts aside

The code works with four registers. Each is put on the stack before it is
changed and taken from there before the code leaves, so at every moment a
register that is not on the stack holds the word it was entered with
(`Spilled`). Pushing, changing and popping registers keep that, and when
nothing is left to pop the core is the one the code was entered with, but for
the words that stay in memory below the stack pointer (`Spilled.eq_under`).

Key definitions: `EntryCode.Core.spill`, `EntryCode.Core.under`,
`EntryCode.Spilled`.
Key theorems: `EntryCode.Core.spill_stack_other`, `EntryCode.Spilled.push`,
`EntryCode.Spilled.set`, `EntryCode.Spilled.pop`, `EntryCode.Spilled.popFlags`,
`EntryCode.Spilled.eq_under`.
-/
import Mathlib.Algebra.Group.Nat.Defs
import SyscallGate.EntryCode
import SyscallGate.Proofs.Flags

namespace SyscallGate
namespace EntryCode

/-! ### Words below the stack pointer -/

namespace Core

/-- The address of a word below the stack pointer, counted from it. -/
def slot (core : Core) (i : Nat) : UInt64 := core.stackPointer - 8 * UInt64.ofNat (i + 1)

/-- The core with words pushed, the first of them on top. -/
def spill (core : Core) : List UInt64 → Core
  | [] => core
  | word :: words => (core.spill words).push word

theorem spill_stackPointer (core : Core) : ∀ words : List UInt64,
    (core.spill words).stackPointer = core.stackPointer - 8 * UInt64.ofNat words.length
  | [] => by simp [spill]
  | word :: words => by
    rw [spill, push, spill_stackPointer core words, List.length_cons, UInt64.ofNat_add]
    grind

theorem spill_stackPointer_sub (core : Core) (words : List UInt64) :
    (core.spill words).stackPointer - 8 = core.slot words.length := by
  rw [spill_stackPointer, slot, UInt64.ofNat_add]
  grind

theorem spill_stack_cons (core : Core) (word : UInt64) (words : List UInt64) :
    (core.spill (word :: words)).stack = assign (core.spill words).stack (core.slot words.length) word := by
  rw [spill, ← spill_stackPointer_sub]
  rfl

/-- Pushing writes as many slots as there are words, and nothing else. -/
theorem spill_stack_other (core : Core) {address : UInt64} : ∀ words : List UInt64,
    (∀ i < words.length, address ≠ core.slot i) → (core.spill words).stack address = core.stack address
  | [], _ => rfl
  | word :: words, h => by
    rw [spill_stack_cons, assign_other _ _ (h _ (Nat.lt_succ_self _))]
    exact spill_stack_other core words fun i hi => h i (Nat.lt_succ_of_lt hi)

theorem slot_ne (core : Core) {i j : Nat} (h : i < j) (hj : j < 2 ^ 60) : core.slot i ≠ core.slot j := by
  intro he
  have := congrArg UInt64.toNat ((UInt64.sub_right_inj _).mp he)
  simp only [UInt64.toNat_mul, UInt64.toNat_ofNat, UInt64.toNat_ofNat'] at this
  omega

theorem stackPointer_ne_slot (core : Core) {i : Nat} (hi : i < 2 ^ 60) : core.stackPointer ≠ core.slot i := by
  intro he
  have hzero : (8 * UInt64.ofNat (i + 1) : UInt64) = 0 := by
    rw [slot] at he
    grind
  have := congrArg UInt64.toNat hzero
  simp only [UInt64.toNat_mul, UInt64.toNat_ofNat, UInt64.toNat_ofNat'] at this
  omega

theorem spill_stack_slot (core : Core) (word : UInt64) (words : List UInt64) : ∀ above : List UInt64,
    (above ++ word :: words).length < 2 ^ 60 →
      (core.spill (above ++ word :: words)).stack (core.slot words.length) = word
  | [], _ => by rw [List.nil_append, spill_stack_cons, assign_same]
  | last :: above, h => by
    simp only [List.cons_append, List.length_cons, List.length_append] at h
    rw [List.cons_append, spill_stack_cons, assign_other _ _ (core.slot_ne _ _)]
    · exact spill_stack_slot core word words above (by simp; omega)
    · simp; omega
    · simp; omega

end Core

/-! ### The code at work -/

/-- The core with the words of registers left in memory below its stack pointer. -/
def Core.under (entry : Core) (written : List Register) : Core :=
  { entry with stack := (entry.spill (written.map entry.regs.get)).stack }

/-- What the code has made of the core it was entered with: the words of
`written` lie below the stack pointer, those of `saved` are still to be popped,
and a register whose word is not saved holds it. -/
structure Spilled (entry : Core) (written saved : List Register) (core : Core) : Prop where
  pointer : core.stackPointer = entry.stackPointer - 8 * UInt64.ofNat saved.length
  stack : core.stack = (entry.spill (written.map entry.regs.get)).stack
  kept : ∀ r, r ∉ saved → core.regs.get r = entry.regs.get r
  flags : Flags.Same core.regs.rflags entry.regs.rflags

namespace Spilled

variable {entry core : Core} {written saved : List Register} {r : Register}

theorem start (entry : Core) : Spilled entry [] [] entry :=
  ⟨by simp, rfl, fun _ _ => rfl, rfl⟩

theorem push (h : Spilled entry saved saved core) (hr : r ∉ saved) :
    Spilled entry (r :: saved) (r :: saved) (core.push (core.regs.get r)) where
  pointer := by
    rw [Core.push, h.pointer, List.length_cons, UInt64.ofNat_add]
    grind
  stack := by
    have hslot : core.stackPointer - 8 = entry.slot (saved.map entry.regs.get).length := by
      rw [h.pointer, Core.slot, List.length_map, UInt64.ofNat_add]
      grind
    rw [Core.push, hslot, h.stack, h.kept r hr, List.map_cons, Core.spill_stack_cons]
  kept s hs := h.kept s fun hmem => hs (List.mem_cons_of_mem _ hmem)
  flags := h.flags

theorem same_set {regs : Registers} {word flags : UInt64} (h : Flags.Same regs.rflags flags)
    (hw : r = .rflags → Flags.Same word flags) : Flags.Same (regs.set r word).rflags flags := by
  cases r
  case rflags => exact hw rfl
  all_goals exact h

/-- A register whose word is saved can be changed, the flags within what can be
loaded. -/
theorem set (h : Spilled entry written saved core) (hr : r ∈ saved) (word : UInt64)
    (hw : r = .rflags → Flags.Same word core.regs.rflags) :
    Spilled entry written saved (core.set r word) where
  pointer := h.pointer
  stack := h.stack
  kept s hs := by
    have hne : s ≠ r := fun he => hs (he ▸ hr)
    exact (Registers.get_set_other _ _ hne).trans (h.kept s hs)
  flags := same_set h.flags fun he => (hw he).trans h.flags

theorem top (h : Spilled entry written (r :: saved) core) (hs : r :: saved <:+ written)
    (hw : written.length < 2 ^ 60) : core.top = entry.regs.get r := by
  obtain ⟨above, rfl⟩ := hs
  rw [Core.top, h.stack, h.pointer, List.map_append, List.map_cons]
  have := entry.spill_stack_slot (entry.regs.get r) (saved.map entry.regs.get) (above.map entry.regs.get)
    (by simpa using hw)
  rwa [List.length_map] at this

/-- Giving the register saved last its word again takes it off the stack. -/
theorem restore (h : Spilled entry written (r :: saved) core) :
    Spilled entry written saved (core.drop.set r (entry.regs.get r)) where
  pointer := by
    rw [Core.set, Core.drop, h.pointer, List.length_cons, UInt64.ofNat_add]
    grind
  stack := h.stack
  kept s hs := by
    by_cases he : s = r
    · rw [he]
      exact Registers.get_set_same _ _ _
    · refine (Registers.get_set_other _ _ he).trans (h.kept s ?_)
      simpa [he] using hs
  flags := by
    refine same_set h.flags fun he => ?_
    subst he
    rfl

theorem pop (h : Spilled entry written (r :: saved) core) (hs : r :: saved <:+ written)
    (hw : written.length < 2 ^ 60) : Spilled entry written saved (core.drop.set r core.top) := by
  rw [h.top hs hw]
  exact h.restore

/-- A pop restores the flags too: those that cannot be loaded never changed. -/
theorem popFlags (h : Spilled entry written (.rflags :: saved) core) (hs : .rflags :: saved <:+ written)
    (hw : written.length < 2 ^ 60) :
    Spilled entry written saved (core.drop.set .rflags (Flags.load core.regs.rflags core.top)) := by
  have hload : Flags.load core.regs.rflags core.top = entry.regs.rflags := by
    rw [h.top hs hw]
    exact Flags.load_of_same h.flags
  rw [hload]
  exact h.restore

/-- When nothing is left to pop, the core is the one the code was entered with. -/
theorem eq_under (h : Spilled entry written [] core) : core = entry.under written := by
  have hp : core.stackPointer = entry.stackPointer := by simpa using h.pointer
  have hr : core.regs = entry.regs := Registers.ext_get fun r => h.kept r List.not_mem_nil
  rw [Core.under, ← h.stack, ← hp, ← hr]

end Spilled

end EntryCode
end SyscallGate
