/-
# The registers of a system call

A system call is staged in ten registers: its number in RAX, up to six
arguments in RDI, RSI, RDX, R10, R8 and R9, the two registers that SYSCALL
itself uses for the return address and the flags, and RFLAGS. `Registers` holds
them all; `get` and `set` go by name, so that rules about "every register that
is not named" can be stated once.

Key definitions: `Register`, `Registers`, `Registers.get`, `Registers.set`,
`Registers.stage`.
Key theorems: `Registers.get_set_same`, `Registers.get_set_other`,
`Registers.ext_get`.
-/
import SyscallGate.Flags

namespace SyscallGate

/-- The registers a system call is staged in, and RFLAGS. -/
inductive Register where
  | rax | rdi | rsi | rdx | r10 | r8 | r9 | rcx | r11 | rflags
  deriving DecidableEq, Repr

namespace Register

/-- All of them, in the order they stand in memory. -/
def all : List Register := [rax, rdi, rsi, rdx, r10, r8, r9, rcx, r11, rflags]

/-- The registers of the arguments, first to last. -/
def arguments : List Register := [rdi, rsi, rdx, r10, r8, r9]

/-- A register's place in memory, counted in words. -/
def index : Register → Nat
  | rax => 0 | rdi => 1 | rsi => 2 | rdx => 3 | r10 => 4
  | r8 => 5 | r9 => 6 | rcx => 7 | r11 => 8 | rflags => 9

/-- The name of a register. -/
def name : Register → String
  | rax => "rax" | rdi => "rdi" | rsi => "rsi" | rdx => "rdx" | r10 => "r10"
  | r8 => "r8" | r9 => "r9" | rcx => "rcx" | r11 => "r11" | rflags => "rflags"

/-- The register of that name. -/
def named? (name : String) : Option Register := all.find? (·.name == name)

end Register

/-- The registers of one system call. -/
structure Registers where
  /-- The number of the call, and after it the word it returns. -/
  rax : UInt64
  rdi : UInt64
  rsi : UInt64
  rdx : UInt64
  r10 : UInt64
  r8 : UInt64
  r9 : UInt64
  /-- Overwritten by SYSCALL with the return address. -/
  rcx : UInt64
  /-- Overwritten by SYSCALL with the flags. -/
  r11 : UInt64
  rflags : UInt64
  deriving DecidableEq, Repr

namespace Registers

/-- Every register zero, the flags included. -/
def zero : Registers := ⟨0, 0, 0, 0, 0, 0, 0, 0, 0, 0⟩

/-- What a register holds. -/
def get (regs : Registers) : Register → UInt64
  | .rax => regs.rax
  | .rdi => regs.rdi
  | .rsi => regs.rsi
  | .rdx => regs.rdx
  | .r10 => regs.r10
  | .r8 => regs.r8
  | .r9 => regs.r9
  | .rcx => regs.rcx
  | .r11 => regs.r11
  | .rflags => regs.rflags

/-- The registers with `value` in one of them. -/
def set (regs : Registers) (r : Register) (value : UInt64) : Registers :=
  match r with
  | .rax => { regs with rax := value }
  | .rdi => { regs with rdi := value }
  | .rsi => { regs with rsi := value }
  | .rdx => { regs with rdx := value }
  | .r10 => { regs with r10 := value }
  | .r8 => { regs with r8 := value }
  | .r9 => { regs with r9 := value }
  | .rcx => { regs with rcx := value }
  | .r11 => { regs with r11 := value }
  | .rflags => { regs with rflags := value }

@[simp] theorem get_set_same (regs : Registers) (r : Register) (value : UInt64) :
    (regs.set r value).get r = value := by
  cases r <;> rfl

theorem get_set_other (regs : Registers) {r s : Register} (value : UInt64) (h : s ≠ r) :
    (regs.set r value).get s = regs.get s := by
  cases r <;> cases s <;> simp_all [get, set]

/-- Register sets that agree on every register are equal. -/
theorem ext_get {a b : Registers} (h : ∀ r, a.get r = b.get r) : a = b := by
  have rax := h .rax; have rdi := h .rdi; have rsi := h .rsi; have rdx := h .rdx
  have r10 := h .r10; have r8 := h .r8; have r9 := h .r9; have rcx := h .rcx
  have r11 := h .r11; have rflags := h .rflags
  cases a; cases b
  simp_all [get]

/-- Writes `values` into `names`, one by one, until either runs out. -/
def setAll (regs : Registers) : List Register → List UInt64 → Registers
  | r :: names, v :: values => (regs.set r v).setAll names values
  | _, _ => regs

/-- A call and its arguments, staged in a fresh set: what no argument fills is
zero, and no loadable flag is set. -/
def stage (id : UInt64) (arguments : List UInt64) : Registers :=
  { zero with rax := id, rflags := Flags.idle }.setAll Register.arguments arguments

/-- The word a call returns. -/
def returned (regs : Registers) : UInt64 := regs.rax

/-- The registers with a flag set or cleared. -/
def putFlag (regs : Registers) (mask : UInt64) (on : Bool) : Registers :=
  { regs with rflags := Flags.put regs.rflags mask on }

/-! ### Text -/

/-- Name and value of each register, values in decimal. -/
def fields (regs : Registers) : List (String × String) :=
  Register.all.map fun r => (r.name, toString (regs.get r).toNat)

/-- The registers on one line. -/
def line (regs : Registers) : String :=
  "SyscallRegs \x7b " ++ ", ".intercalate (regs.fields.map fun f => f.1 ++ ": " ++ f.2) ++ " \x7d"

/-- The registers, one a line. -/
def block (regs : Registers) : String :=
  "SyscallRegs \x7b\n" ++ String.join (regs.fields.map fun f => "    " ++ f.1 ++ ": " ++ f.2 ++ ",\n")
    ++ "\x7d"

end Registers
end SyscallGate
