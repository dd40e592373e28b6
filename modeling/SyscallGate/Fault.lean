/-
# What stops a computation

Arithmetic here is checked: a shift by the width or more, a sum or a
difference outside the type, an index past the end of a table are faults, not
wrapped values. A fault is a value with its cause; its wording is `message`.

Key definitions: `Fault`, `Fault.message`.
-/

namespace SyscallGate

/-- Why a computation has no value. -/
inductive Fault where
  /-- A left shift by the width of the type or more. -/
  | shiftOverflow
  /-- A sum outside the type. -/
  | addOverflow
  /-- A difference outside the type. -/
  | subOverflow
  /-- An index past the end of a table of the given length. -/
  | outOfBounds (length index : Nat)
  /-- Values left in a save area where none may be. -/
  | valuesSaved
  /-- A privilege level other than 0 to 3. -/
  | invalidLevel
  deriving DecidableEq, Repr

/-- The text a fault is reported with. -/
def Fault.message : Fault → String
  | .shiftOverflow => "attempt to shift left with overflow"
  | .addOverflow => "attempt to add with overflow"
  | .subOverflow => "attempt to subtract with overflow"
  | .outOfBounds length index =>
    "index out of bounds: the len is " ++ toString length ++ " but the index is " ++ toString index
  | .valuesSaved => "values left in the save area"
  | .invalidLevel => "invalid privilege level"

end SyscallGate
