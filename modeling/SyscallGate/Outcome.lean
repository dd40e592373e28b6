/-
# The outcome of a system call

A call returns one word. The 4095 largest words stand for failures, each the
negation of its errno; every other word is the value of a call that succeeded.

Key definitions: `Outcome`, `Outcome.ofReturn`, `Errno`, `Errno.text`.
-/

namespace SyscallGate

/-- The number of a failed call's reason. -/
structure Errno where
  number : UInt64
  deriving DecidableEq, Repr

namespace Errno

/-- The largest number a return word can stand for. -/
def largest : UInt64 := 4095

/-- Operation not permitted. -/
def notPermitted : Errno := ⟨1⟩

/-- Invalid argument. -/
def invalidArgument : Errno := ⟨22⟩

/-- No such call. -/
def noSuchCall : Errno := ⟨38⟩

/-- The failure, for a reader. -/
def text (e : Errno) : String :=
  "system call failed with errno " ++ toString e.number.toNat

/-- The failure in a column: its text is not padded to the column's width, and
a bar ends it. -/
def cell (e : Errno) : String := e.text ++ "|"

/-- The failure as a term, on one line. -/
def line (e : Errno) : String := "SyscallError(" ++ toString e.number.toNat ++ ")"

/-- The failure as a term, one part a line. -/
def block (e : Errno) : String := "SyscallError(\n    " ++ toString e.number.toNat ++ ",\n)"

end Errno

/-- What a call came to. -/
inductive Outcome where
  | value (word : UInt64)
  | failure (errno : Errno)
  deriving DecidableEq, Repr

namespace Outcome

/-- The outcome that a return word stands for. -/
def ofReturn (ret : UInt64) : Outcome :=
  if -Errno.largest ≤ ret then failure ⟨-ret⟩ else value ret

/-- The return word of an outcome. -/
def toReturn : Outcome → UInt64
  | value word => word
  | failure errno => -errno.number

end Outcome
end SyscallGate
