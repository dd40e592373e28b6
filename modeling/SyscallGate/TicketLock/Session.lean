/-
# One driver of a ticket lock

A driver holds at most one guard. When it asks for the lock it spins, one PAUSE
at a time, and gives up at the limit; while it spins, the guard it held before
may be dropped at a chosen PAUSE. A request that was given up leaves its ticket
in the queue, so no later request is granted.

Key definitions: `Session`, `Session.Request`, `Session.wait`, `Session.step`,
`Session.run`.
-/
import SyscallGate.TicketLock

namespace SyscallGate
namespace TicketLock

/-- A lock around a word, and whether its driver holds a guard. -/
structure Session where
  lock : TicketLock UInt64
  held : Bool

namespace Session

/-- What the driver asks for. -/
inductive Request where
  /-- The lock; a guard held before is dropped at that PAUSE of the wait. -/
  | lock (dropAt : Option Nat)
  /-- Drops the guard. -/
  | unlock
  /-- Reads the value through the guard. -/
  | read
  /-- Writes the value through the guard. -/
  | write (word : UInt64)
  /-- Adds to the value through the guard, modulo `2 ^ 64`. -/
  | add (word : UInt64)
  deriving DecidableEq, Repr

/-- What the driver gets. -/
inductive Reply where
  /-- The lock was granted. -/
  | locked
  /-- The wait was given up. -/
  | spinning
  | unlocked
  /-- The value through the guard; nothing without one. -/
  | value (word : Option UInt64)
  deriving DecidableEq, Repr

/-- A reply, the PAUSEs it took, and the lock's own count after it. -/
structure Entry where
  reply : Reply
  pauses : Nat
  releases : Except Fault UInt64

/-- A session that has not begun. -/
def start (value : UInt64) : Session := ⟨TicketLock.new value, false⟩

/-- Drops the guard, if one is held. -/
def drop (s : Session) : Session := if s.held then ⟨s.lock.release, false⟩ else s

/-- Waits for a ticket through at most `left` more PAUSEs, `paused` of them
behind it: whether it is served, the PAUSEs in all, and the session after. -/
def wait (ticket : UInt64) (dropAt : Option Nat) : Nat → Nat → Session → Bool × Nat × Session
  | 0, paused, s => (false, paused, s)
  | left + 1, paused, s =>
    if s.lock.isServing ticket then (true, paused, s)
    else wait ticket dropAt left (paused + 1) (if dropAt = some (paused + 1) then s.drop else s)

/-- Asks for the lock, with a wait of at most `limit` PAUSEs and of one at least. -/
def acquire (limit : Nat) (dropAt : Option Nat) (s : Session) : Bool × Nat × Session :=
  let (ticket, lock) := s.lock.take
  wait ticket dropAt (max 1 limit) 0 { s with lock }

/-- Changes the value through the guard and reads it. -/
def access (change : UInt64 → UInt64) (s : Session) : Reply × Session :=
  if s.held then
    let word := change s.lock.value
    (.value (some word), { s with lock := { s.lock with value := word } })
  else (.value none, s)

/-- Serves one request: the reply, the PAUSEs, and the session after. -/
def step (limit : Nat) (s : Session) : Request → Reply × Nat × Session
  | .lock dropAt =>
    match s.acquire limit dropAt with
    | (true, pauses, s) => (.locked, pauses, { s with held := true })
    | (false, pauses, s) => (.spinning, pauses, s)
  | .unlock => (.unlocked, 0, s.drop)
  | .read =>
    let (reply, s) := s.access id
    (reply, 0, s)
  | .write word =>
    let (reply, s) := s.access fun _ => word
    (reply, 0, s)
  | .add word =>
    let (reply, s) := s.access fun old => old + word
    (reply, 0, s)

/-- Serves requests in order. -/
def run (limit : Nat) : Session → List Request → List Entry
  | _, [] => []
  | s, request :: requests =>
    match s.step limit request with
    | (reply, pauses, s) => ⟨reply, pauses, s.lock.releases⟩ :: run limit s requests

end Session
end TicketLock
end SyscallGate
