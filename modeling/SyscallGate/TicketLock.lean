/-
# A ticket lock

Whoever wants the lock takes a ticket and waits until it is the one being
served; a release serves the next. So the lock is granted in the order of the
tickets, and a ticket that nobody waits for any more holds up all later ones.
Both counters wrap around.

Key definitions: `TicketLock`, `TicketLock.take`, `TicketLock.isServing`,
`TicketLock.release`, `TicketLock.releases`.
-/
import SyscallGate.Fault

namespace SyscallGate

/-- A lock around a value. -/
structure TicketLock (α : Type) where
  /-- The ticket that the next comer takes. -/
  nextTicket : UInt64
  /-- The ticket that holds the lock or may take it. -/
  nowServing : UInt64
  value : α

namespace TicketLock

variable {α : Type}

/-- A lock that nobody has asked for yet. -/
def new (value : α) : TicketLock α := ⟨1, 1, value⟩

/-- Takes a ticket. -/
def take (lock : TicketLock α) : UInt64 × TicketLock α :=
  (lock.nextTicket, { lock with nextTicket := lock.nextTicket + 1 })

/-- Whether a ticket is the one being served. -/
def isServing (lock : TicketLock α) (ticket : UInt64) : Bool := lock.nowServing == ticket

/-- Gives the lock up: the next ticket is served. -/
def release (lock : TicketLock α) : TicketLock α := { lock with nowServing := lock.nowServing + 1 }

/-- Whether no ticket is out, so that the next one is served at once. -/
def isFree (lock : TicketLock α) : Bool := lock.nowServing == lock.nextTicket

/-- How often the lock was given up; a fault when the counter stands at zero. -/
def releases (lock : TicketLock α) : Except Fault UInt64 :=
  if lock.nowServing = 0 then .error .subOverflow else .ok (lock.nowServing - 1)

end TicketLock
end SyscallGate
