/-
# What states are made of

A register file, a bank of MSRs, the ports and the words of a stack all hold a
value at every key, from the start on. Such a table is a function, and writing
one cell is `assign`: the cell has the new value and every other cell keeps its
own.

A history is a list of entries, newest first, that only grows. What was added
to it between two moments is the difference of its two states, `since`, oldest
first.

Key definitions: `assign`, `since`.
Key theorems: `assign_same`, `assign_other`, `since_append`.
-/

namespace SyscallGate

/-! ### Tables -/

section Tables

variable {κ ν : Type} [DecidableEq κ]

/-- The table `cells` with `value` at `key`. -/
def assign (cells : κ → ν) (key : κ) (value : ν) : κ → ν :=
  fun k => if k = key then value else cells k

@[simp] theorem assign_same (cells : κ → ν) (key : κ) (value : ν) :
    assign cells key value key = value := by
  simp [assign]

theorem assign_other (cells : κ → ν) {key k : κ} (value : ν) (h : k ≠ key) :
    assign cells key value k = cells k := by
  simp [assign, h]

end Tables

/-! ### Histories -/

section Histories

variable {ε : Type}

/-- The entries of `later` that came after `earlier`, oldest first. -/
def since (earlier later : List ε) : List ε :=
  (later.take (later.length - earlier.length)).reverse

/-- The entries put in front of a history are those that came after it. -/
theorem since_append (added earlier : List ε) : since earlier (added ++ earlier) = added.reverse := by
  simp [since]

end Histories
end SyscallGate
