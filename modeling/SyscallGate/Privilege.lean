/-
# The privilege of the code that calls

The two low bits of a code selector name the ring the code runs in. For
routing a system call only one question matters: is it the most privileged
ring or not. `CallerClass.ofSelector` answers it from the bits themselves,
`CallerClass.ofRing` from the ring they name.

Key definitions: `CallerClass`, `Ring`, `CallerClass.ofSelector`,
`CallerClass.ofRing`, `Ring.ofLevel`, `Ring.ofSelector`.
-/
import SyscallGate.Fault

namespace SyscallGate

/-- The bits of a selector that name the ring. -/
def ringMask : UInt16 := 3

/-- Where a call comes from, as far as routing it goes. -/
inductive CallerClass where
  /-- Ring 0. -/
  | mostPrivileged
  /-- Rings 1 to 3. -/
  | reduced
  deriving DecidableEq, Repr

/-- The privilege rings, most privileged first. -/
inductive Ring where
  | ring0 | ring1 | ring2 | ring3
  deriving DecidableEq, Repr

namespace Ring

/-- The ring of a level number; a fault above 3. -/
def ofLevel (level : UInt16) : Except Fault Ring :=
  match level.toNat with
  | 0 => .ok ring0
  | 1 => .ok ring1
  | 2 => .ok ring2
  | 3 => .ok ring3
  | _ => .error .invalidLevel

/-- The ring a selector names in its two low bits. -/
def ofSelector (selector : UInt16) : Ring :=
  match selector.toNat.testBit 1, selector.toNat.testBit 0 with
  | false, false => ring0
  | false, true => ring1
  | true, false => ring2
  | true, true => ring3

end Ring

namespace CallerClass

/-- The class of the code a selector names. -/
def ofSelector (selector : UInt16) : CallerClass :=
  if selector &&& ringMask = 0 then mostPrivileged else reduced

/-- The class of a ring. -/
def ofRing : Ring → CallerClass
  | .ring0 => mostPrivileged
  | .ring1 | .ring2 | .ring3 => reduced

/-- The name of a class. -/
def name : CallerClass → String
  | mostPrivileged => "MostPrivileged"
  | reduced => "Reduced"

end CallerClass
end SyscallGate
