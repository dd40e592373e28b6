/-
# Many threads at one ticket lock

Each contender adds one to the value a number of times, and for each of them
takes the lock. What it does is cut into steps that happen at once: taking a
ticket, looking whether it is served, reading the value, writing it, giving the
lock up. A schedule names the contender that takes the next step, so every
interleaving is a schedule. A contender that is done, or that finds another
ticket served, stays as it is.

Key definitions: `Contenders`, `Contenders.Phase`, `Contenders.step`,
`Contenders.run`, `Contenders.tally`.
-/
import SyscallGate.TicketLock

namespace SyscallGate
namespace TicketLock

namespace Contenders

/-- Where a contender stands in one round. -/
inductive Phase where
  /-- Without a ticket. -/
  | idle
  /-- With a ticket, until it is served. -/
  | waiting (ticket : UInt64)
  /-- In possession of the lock. -/
  | holding (ticket : UInt64)
  /-- In possession of the lock, the value read. -/
  | loaded (ticket word : UInt64)
  /-- In possession of the lock, the value written. -/
  | stored (ticket : UInt64)
  deriving DecidableEq, Repr

/-- A contender and the rounds it still has to finish. -/
structure Worker where
  phase : Phase
  rounds : Nat
  deriving DecidableEq, Repr

/-- What happened to the queue. -/
inductive Event where
  /-- A ticket was taken. -/
  | took (who : Nat) (ticket : UInt64)
  /-- The lock was granted. -/
  | entered (who : Nat) (ticket : UInt64)
  /-- The lock was given up. -/
  | left (who : Nat) (ticket : UInt64)
  deriving DecidableEq, Repr

/-- Whether the lock has been granted and not yet given up. -/
def Phase.inside : Phase → Bool
  | .idle | .waiting _ => false
  | .holding _ | .loaded _ _ | .stored _ => true

end Contenders

/-- The lock, the contenders, and what happened, newest first. -/
structure Contenders where
  lock : TicketLock UInt64
  workers : List Contenders.Worker
  history : List Contenders.Event

namespace Contenders

/-- Contenders that have not begun, as many as `rounds` has entries. -/
def start (value : UInt64) (rounds : List Nat) : Contenders :=
  ⟨TicketLock.new value, rounds.map fun n => ⟨.idle, n⟩, []⟩

/-- The contender `who` in another phase. -/
def enter (s : Contenders) (who : Nat) (worker : Worker) (phase : Phase) : Contenders :=
  { s with workers := s.workers.set who { worker with phase } }

/-- The contender `who`, which is `worker`, takes a step. -/
def advance (s : Contenders) (who : Nat) (worker : Worker) : Contenders :=
  match worker.phase with
  | .idle =>
    if worker.rounds = 0 then s
    else
      let (ticket, lock) := s.lock.take
      { s.enter who worker (.waiting ticket) with
        lock
        history := .took who ticket :: s.history }
  | .waiting ticket =>
    if s.lock.isServing ticket then
      { s.enter who worker (.holding ticket) with history := .entered who ticket :: s.history }
    else s
  | .holding ticket => s.enter who worker (.loaded ticket s.lock.value)
  | .loaded ticket word =>
    { s.enter who worker (.stored ticket) with lock := { s.lock with value := word + 1 } }
  | .stored ticket =>
    { s.enter who ⟨.idle, worker.rounds - 1⟩ .idle with
      lock := s.lock.release
      history := .left who ticket :: s.history }

/-- The contender `who` takes a step, if there is one of that number. -/
def step (s : Contenders) (who : Nat) : Contenders :=
  match s.workers[who]? with
  | some worker => s.advance who worker
  | none => s

/-- The contenders take the steps of a schedule. -/
def run (s : Contenders) (schedule : List Nat) : Contenders := schedule.foldl step s

/-- A schedule that finishes `count` contenders of `rounds` rounds, each in turn. -/
def inTurn (count rounds : Nat) : List Nat :=
  (List.range count).flatMap fun who => List.replicate (5 * rounds) who

/-- The value under one more lock when `count` contenders have finished `rounds`
rounds each, and the lock's own count after it is given up again. -/
def tally (count rounds : Nat) (value : UInt64) : UInt64 × Except Fault UInt64 :=
  let done := (start value (List.replicate count rounds)).run (inTurn count rounds)
  let lock := done.lock.take.2
  (lock.value, lock.release.releases)

end Contenders
end TicketLock
end SyscallGate
