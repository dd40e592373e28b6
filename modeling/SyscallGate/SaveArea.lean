/-
# Registers put aside

Routing a call overwrites registers that the call must still have afterwards,
so they are put aside in a save area of four words, last in, first out. Saving
a fifth word and restoring from an empty area are faults. A restored word stays
where it was; what counts is how many of the words are in use.

Key definitions: `SaveArea`, `SaveArea.push`, `SaveArea.pop`,
`SaveArea.expectEmpty`.
-/
import SyscallGate.Fault

namespace SyscallGate

/-- The words of a save area, and how many of them are in use. -/
structure SaveArea where
  words : Vector UInt64 4
  used : Nat

namespace SaveArea

/-- The number of words: for the flags and RAX, and for RCX and RDX where a
request is written. -/
def capacity : Nat := 4

/-- A save area with no word in use. -/
def empty : SaveArea where
  words := Vector.replicate 4 0
  used := 0

/-- The area with one more word saved. -/
def push (area : SaveArea) (word : UInt64) : Except Fault SaveArea :=
  if h : area.used < 4 then .ok ⟨area.words.set area.used word h, area.used + 1⟩
  else .error (.outOfBounds capacity area.used)

/-- The word saved last, and the area without it. -/
def pop : SaveArea → Except Fault (UInt64 × SaveArea)
  | ⟨_, 0⟩ => .error .subOverflow
  | ⟨words, used + 1⟩ =>
    match words[used]? with
    | some word => .ok (word, ⟨words, used⟩)
    | none => .error (.outOfBounds capacity used)

/-- Whether no word is in use. -/
def isEmpty (area : SaveArea) : Bool := area.used == 0

/-- A fault unless no word is in use. -/
def expectEmpty (area : SaveArea) : Except Fault Unit :=
  if area.isEmpty then .ok () else .error .valuesSaved

end SaveArea
end SyscallGate
