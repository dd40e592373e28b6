/-
# What windows show and take

A register is seen through a window as it is, if the window shows it, and idle
otherwise (`Window.get_look`). It comes back changed if the window takes it, and
as it was otherwise (`Window.get_takeBack`). A staged call has nothing in the
registers that it does not fill, so every window that shows those shows the call
as it was staged (`Window.look_staged`): its number in RAX (`Call.staged_rax`) and
its arguments in the registers for them, in order (`Call.map_staged`).

Key theorems: `Call.staged_rax`, `Call.map_staged`, `Window.get_look`,
`Window.get_takeBack`, `Window.look_staged`.
-/
import SyscallGate.Machine.Instruction

namespace SyscallGate

theorem Registers.get_set (regs : Registers) (r s : Register) (value : UInt64) :
    (regs.set r value).get s = if s = r then value else regs.get s := by
  by_cases h : s = r
  · rw [if_pos h, h, get_set_same]
  · rw [if_neg h, get_set_other regs value h]

theorem Register.mem_all (r : Register) : r ∈ Register.all := by
  cases r <;> decide

theorem Registers.get_setAll_of_notMem : ∀ (names : List Register) (values : List UInt64) (regs : Registers)
    {r : Register}, r ∉ names.take values.length → (regs.setAll names values).get r = regs.get r
  | [], _, _, _, _ => rfl
  | _ :: _, [], _, _, _ => rfl
  | name :: names, value :: values, regs, r, h => by
    have hne : r ≠ name := fun heq => h (heq ▸ List.mem_cons_self)
    have hnames : r ∉ names.take values.length := fun hmem => h (List.mem_cons_of_mem _ hmem)
    rw [setAll, get_setAll_of_notMem names values _ hnames, get_set_other regs value hne]

theorem Registers.map_get_setAll : ∀ (names : List Register) (values : List UInt64) (regs : Registers),
    names.Nodup → values.length ≤ names.length →
      (names.take values.length).map (regs.setAll names values).get = values
  | _, [], _, _, _ => by rw [List.length_nil, List.take_zero, List.map_nil]
  | [], _ :: _, _, _, hlength => absurd hlength (Nat.not_succ_le_zero _)
  | name :: names, value :: values, regs, hnodup, hlength => by
    obtain ⟨hname, hnames⟩ := List.nodup_cons.mp hnodup
    have hhead : ((regs.set name value).setAll names values).get name = value := by
      rw [get_setAll_of_notMem _ _ _ (mt List.mem_of_mem_take hname), get_set_same]
    have htail := map_get_setAll names values (regs.set name value) hnames (Nat.le_of_succ_le_succ hlength)
    rw [setAll, List.length_cons, List.take_succ_cons, List.map_cons, hhead, htail]

theorem Call.staged_rax (call : Call) : call.staged.rax = call.id := by
  have hrax : Register.rax ∉ Register.arguments.take call.arguments.length :=
    mt List.mem_of_mem_take (by decide)
  exact Registers.get_setAll_of_notMem Register.arguments call.arguments _ hrax

/-- The arguments of a staged call stand in their registers, in order. -/
theorem Call.map_staged (call : Call) :
    (Register.arguments.take call.arguments.length).map call.staged.get = call.arguments :=
  Registers.map_get_setAll _ _ _ (by decide) call.length_le

namespace Machine
namespace Window

/-- Registers as somebody sees them who is shown none. -/
def idle : Registers := { Registers.zero with rflags := Flags.idle }

/-- What is copied from `regs` into `seen`, one register after another. -/
theorem get_foldl_set (regs : Registers) (r : Register) : ∀ (shown : List Register) (seen : Registers),
    (shown.foldl (fun seen s => seen.set s (regs.get s)) seen).get r =
      if r ∈ shown then regs.get r else seen.get r
  | [], seen => (if_neg List.not_mem_nil).symm
  | s :: shown, seen => by
    rw [List.foldl_cons, get_foldl_set regs r shown, Registers.get_set]
    by_cases hr : r = s
    · simp [hr]
    · simp [hr]

/-- A register is seen if it is shown. -/
theorem get_look (window : Window) (regs : Registers) (r : Register) :
    (window.look regs).get r = if r ∈ window.shown then regs.get r else idle.get r :=
  get_foldl_set regs r window.shown idle

/-- One register taken back; of the flags only the loadable ones. -/
def takeOne (after regs : Registers) : Register → Registers
  | .rflags => { regs with rflags := Flags.load regs.rflags after.rflags }
  | r => regs.set r (after.get r)

theorem get_takeOne (after regs : Registers) {r : Register} (hr : r ≠ .rflags) (s : Register) :
    (takeOne after regs s).get r = if r = s then after.get r else regs.get r := by
  by_cases hs : s = .rflags
  · rw [hs, if_neg hr]
    exact regs.get_set_other _ hr
  · have hset : takeOne after regs s = regs.set s (after.get s) := by
      cases s <;> first | rfl | exact absurd rfl hs
    rw [hset, Registers.get_set]
    by_cases hrs : r = s
    · rw [if_pos hrs, if_pos hrs, hrs]
    · rw [if_neg hrs, if_neg hrs]

theorem get_foldl_takeOne (after : Registers) {r : Register} (hr : r ≠ .rflags) :
    ∀ (taken : List Register) (before : Registers),
      (taken.foldl (takeOne after) before).get r = if r ∈ taken then after.get r else before.get r
  | [], _ => (if_neg List.not_mem_nil).symm
  | s :: taken, before => by
    rw [List.foldl_cons, get_foldl_takeOne after hr taken, get_takeOne after before hr]
    by_cases hs : r = s
    · simp [hs]
    · simp [hs]

theorem get_takeBack (window : Window) (before after : Registers) {r : Register} (hr : r ≠ .rflags) :
    (window.takeBack before after).get r = if r ∈ window.taken then after.get r else before.get r := by
  have htake : window.takeBack before after = window.taken.foldl (takeOne after) before := rfl
  rw [htake, get_foldl_takeOne after hr]

theorem get_staged_of_notMem (call : Call) {r : Register} (h : r ∉ call.filled) :
    call.staged.get r = idle.get r := by
  have hrax : r ≠ .rax := fun heq => h (heq ▸ List.mem_cons_self)
  have hnames : r ∉ Register.arguments.take call.arguments.length := fun hmem =>
    h (List.mem_cons_of_mem _ hmem)
  rw [Call.staged, Registers.stage, Registers.get_setAll_of_notMem _ _ _ hnames]
  exact idle.get_set_other call.id hrax

/-- **A window that shows what a call fills shows the whole call.** -/
theorem look_staged {window : Window} {call : Call} (h : ∀ r ∈ call.filled, r ∈ window.shown) :
    window.look call.staged = call.staged := by
  apply Registers.ext_get
  intro r
  rw [get_look]
  by_cases hshown : r ∈ window.shown
  · rw [if_pos hshown]
  · rw [if_neg hshown, get_staged_of_notMem call (mt (h r) hshown)]

/-! ### The windows there are -/

theorem filled_whole (call : Call) : ∀ r ∈ call.filled, r ∈ whole.shown := fun r _ => r.mem_all

theorem filled_ofRoute (call : Call) (kind : Exit) : ∀ r ∈ call.filled, r ∈ (ofRoute kind).shown := by
  intro r hr
  rcases List.mem_cons.mp hr with rfl | hargument
  · cases kind <;> decide
  · have hall : r ∈ Register.arguments := List.mem_of_mem_take hargument
    cases kind with
    | syscall => exact List.mem_cons_of_mem _ hall
    | vmgexit => exact List.mem_cons_of_mem _ (List.mem_cons_of_mem _ (List.mem_cons_of_mem _ hall))

end Window
end Machine
end SyscallGate
