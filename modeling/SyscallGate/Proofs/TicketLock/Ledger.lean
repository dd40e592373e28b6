/-
# One driver needs no tickets

For one driver the lock comes to very little: whether a guard is held, whether a
request was given up, how many guards were dropped, and the value. A `Ledger`
keeps just that. A request is granted at once if no guard is held, and in the
middle of its wait if the guard held before is dropped there; a request that was
given up has a ticket that nobody waits for, so none is granted after it. The
session with its counters answers as the ledger does (`run_eq_ledger`), as long as
the counter of tickets does not come around: every ticket before the one being
served was granted and dropped, and those behind it are one for the guard, and
those given up (`Tallied`).

What the ledger keeps can be read off the entries before: a request was given up if
one of them says so, the guards are as many as were granted, and the value is what
was written through them (`Explained`).

Key definitions: `Ledger`, `Ledger.grantedAfter`, `Ledger.step`, `Ledger.run`,
`Session.written`, `Session.Tallied`, `Session.Explained`.
Key theorems: `Session.wait_of_unserved`, `Session.wait_of_dropped`,
`Session.Tallied.step`, `Session.run_eq_ledger`, `Session.explained`,
`Session.answered_by_ledger`.
-/
import Mathlib.Algebra.Ring.Nat
import SyscallGate.TicketLock.Session

namespace SyscallGate
namespace TicketLock

/-- What a driver knows of its lock without looking at tickets. -/
structure Ledger where
  value : UInt64
  /-- Whether the driver holds a guard. -/
  held : Bool
  /-- Whether a request was given up. -/
  blocked : Bool
  /-- The number of guards dropped. -/
  dropped : Nat
  deriving DecidableEq, Repr

namespace Session

/-- Whether the lock is asked for. -/
def Request.isLock : Request → Bool
  | lock _ => true
  | _ => false

/-- Whether the value is asked for. -/
def Request.isAccess : Request → Bool
  | read => true
  | write _ => true
  | add _ => true
  | _ => false

/-- What a request writes through a guard. -/
def Request.change : Request → UInt64 → UInt64
  | write word, _ => word
  | add word, value => value + word
  | _, value => value

/-- The value after a request: one that was shown no value had no guard to write
through. -/
def Entry.written (request : Request) (value : UInt64) (entry : Entry) : UInt64 :=
  match entry.reply with
  | .value (some _) => request.change value
  | _ => value

/-- The value after all that was written through guards, in order. -/
def written (value : UInt64) (requests : List Request) (entries : List Entry) : UInt64 :=
  (requests.zip entries).foldl (fun value made => made.2.written made.1 value) value

end Session

namespace Ledger

open Session

/-- The ledger of a lock that nobody has asked for yet. -/
def start (value : UInt64) : Ledger := ⟨value, false, false, 0⟩

/-- The guard is dropped, if one is held. -/
def drop (l : Ledger) : Ledger :=
  if l.held then { l with held := false, dropped := l.dropped + 1 } else l

/-- The PAUSEs after which a request is granted, if it is: none without a guard,
and with one those until it is dropped, if that is before the limit. -/
def grantedAfter (limit : Nat) (dropAt : Option Nat) (l : Ledger) : Option Nat :=
  if l.blocked then none
  else if l.held then dropAt.filter fun k => 1 ≤ k && k < limit
  else some 0

/-- A wait that comes to the limit: a guard may be dropped in it all the same. -/
def waited (limit : Nat) (dropAt : Option Nat) (l : Ledger) : Ledger :=
  if dropAt.any fun k => 1 ≤ k && k ≤ limit then l.drop else l

/-- The value is changed, if a guard is held. -/
def write (change : UInt64 → UInt64) (l : Ledger) : Ledger :=
  if l.held then { l with value := change l.value } else l

/-- The value through the guard, if one is held. -/
def seen (l : Ledger) : Option UInt64 := if l.held then some l.value else none

/-- One request: the reply, the PAUSEs, and the ledger after it. -/
def step (limit : Nat) (l : Ledger) : Request → Reply × Nat × Ledger
  | .lock dropAt =>
    match l.grantedAfter limit dropAt with
    | some pauses => (.locked, pauses, { l.drop with held := true })
    | none => (.spinning, limit, { l.waited limit dropAt with blocked := true })
  | .unlock => (.unlocked, 0, l.drop)
  | .read => (.value l.seen, 0, l)
  | .write word => (.value (l.write fun _ => word).seen, 0, l.write fun _ => word)
  | .add word => (.value (l.write (· + word)).seen, 0, l.write (· + word))

/-- The ledger after requests. -/
def after (limit : Nat) (l : Ledger) (requests : List Request) : Ledger :=
  requests.foldl (fun l request => (l.step limit request).2.2) l

/-- The entry of one request; the lock counts the guards dropped. -/
def entry (limit : Nat) (l : Ledger) (request : Request) : Entry :=
  let (reply, pauses, l) := l.step limit request
  ⟨reply, pauses, .ok (UInt64.ofNat l.dropped)⟩

/-- The entries of requests, in order. -/
def run (limit : Nat) : Ledger → List Request → List Entry
  | _, [] => []
  | l, request :: requests => l.entry limit request :: run limit (l.step limit request).2.2 requests

/-- The requests that were granted: their guards are dropped, but for the one held. -/
def granted (l : Ledger) : Nat := l.dropped + l.held.toNat

theorem drop_eq (l : Ledger) : l.drop = { l with held := false, dropped := l.granted } := by
  obtain ⟨value, held, blocked, dropped⟩ := l
  cases held <;> rfl

theorem write_eq (l : Ledger) (change : UInt64 → UInt64) :
    l.write change = { l with value := if l.held then change l.value else l.value } := by
  obtain ⟨value, held, blocked, dropped⟩ := l
  cases held <;> rfl

theorem seen_write (l : Ledger) (change : UInt64 → UInt64) :
    (l.write change).seen = if l.held then some (l.write change).value else none := by
  rw [write_eq, seen]

theorem granted_drop (l : Ledger) : l.drop.granted = l.granted := by
  rw [drop_eq]
  rfl

theorem dropped_drop (l : Ledger) : l.drop.dropped = l.granted := by rw [drop_eq]

theorem waited_eq (l : Ledger) (limit : Nat) (dropAt : Option Nat) :
    l.waited limit dropAt = l.drop ∨ l.waited limit dropAt = l := by
  rw [waited]
  exact ite_eq_or_eq _ _ _

/-! ### What the entries tell -/

variable (limit : Nat)

theorem run_concat : ∀ (l : Ledger) (before : List Request) (request : Request),
    l.run limit (before ++ [request]) = l.run limit before ++ [(l.after limit before).entry limit request]
  | _, [], _ => rfl
  | l, first :: before, request => by
    rw [List.cons_append, run, run_concat, run]
    rfl

theorem take_run : ∀ (l : Ledger) (requests : List Request) (i : Nat),
    (l.run limit requests).take i = l.run limit (requests.take i)
  | _, _, 0 => rfl
  | _, [], _ + 1 => rfl
  | l, request :: requests, i + 1 => by rw [run, List.take_succ_cons, take_run, List.take_succ_cons, run]

theorem getElem?_run : ∀ (l : Ledger) (requests : List Request) (i : Nat),
    (l.run limit requests)[i]? = requests[i]?.map ((l.after limit (requests.take i)).entry limit)
  | _, [], _ => rfl
  | _, _ :: _, 0 => rfl
  | l, request :: requests, i + 1 => by
    rw [run, List.getElem?_cons_succ, getElem?_run, List.getElem?_cons_succ, List.take_succ_cons]
    rfl

theorem length_run : ∀ (l : Ledger) (requests : List Request), (l.run limit requests).length = requests.length
  | _, [] => rfl
  | l, request :: requests => by rw [run, List.length_cons, List.length_cons, length_run]

theorem after_concat (l : Ledger) (before : List Request) (request : Request) :
    l.after limit (before ++ [request]) = ((l.after limit before).step limit request).2.2 := by
  rw [after, List.foldl_append]
  rfl

variable {limit} in
/-- The lock is granted unless a request was given up, if no guard is held or the one
held is dropped. -/
theorem entry_locked_iff (l : Ledger) (dropAt : Option Nat) :
    (l.entry limit (.lock dropAt)).reply = .locked ↔
      l.blocked = false ∧ (l.held = false ∨ ∃ k, dropAt = some k ∧ 1 ≤ k ∧ k < limit) := by
  have hreply : (l.entry limit (.lock dropAt)).reply = .locked ↔ (l.grantedAfter limit dropAt).isSome = true := by
    simp only [entry, step]
    cases l.grantedAfter limit dropAt <;> simp
  rw [hreply, grantedAfter]
  cases l.blocked with
  | true => simp
  | false =>
    cases l.held with
    | true => cases dropAt <;> simp [Option.filter]
    | false => simp

variable {limit} in
/-- It is granted at once, or when the guard is dropped. -/
theorem entry_of_locked (l : Ledger) {dropAt : Option Nat} (h : (l.entry limit (.lock dropAt)).reply = .locked) :
    if l.held then dropAt = some (l.entry limit (.lock dropAt)).pauses
    else (l.entry limit (.lock dropAt)).pauses = 0 := by
  simp only [entry, step] at h ⊢
  cases hpauses : l.grantedAfter limit dropAt with
  | none => simp [hpauses] at h
  | some pauses =>
    rw [grantedAfter] at hpauses
    obtain ⟨-, hpauses⟩ := Option.ite_none_left_eq_some.mp hpauses
    cases hheld : l.held with
    | true =>
      rw [hheld, if_pos rfl] at hpauses
      exact (Option.filter_eq_some_iff.mp hpauses).1
    | false =>
      rw [hheld, if_neg Bool.false_ne_true] at hpauses
      exact (Option.some.inj hpauses).symm

variable {limit} in
/-- It is waited for to the limit if it is not granted. -/
theorem entry_of_not_locked (l : Ledger) {dropAt : Option Nat} (h : (l.entry limit (.lock dropAt)).reply ≠ .locked) :
    (l.entry limit (.lock dropAt)).reply = .spinning ∧ (l.entry limit (.lock dropAt)).pauses = limit := by
  simp only [entry, step] at h ⊢
  cases hpauses : l.grantedAfter limit dropAt with
  | some pauses => simp [hpauses] at h
  | none => exact ⟨rfl, rfl⟩

theorem entry_of_access (l : Ledger) {request : Request} (h : request.isAccess = true) :
    (l.entry limit request).reply = .value (if l.held then some (l.step limit request).2.2.value else none) ∧
      (l.entry limit request).pauses = 0 := by
  cases request with
  | lock _ => nomatch h
  | unlock => nomatch h
  | read => exact ⟨rfl, rfl⟩
  | write word => exact ⟨congrArg Reply.value (l.seen_write fun _ => word), rfl⟩
  | add word => exact ⟨congrArg Reply.value (l.seen_write (· + word)), rfl⟩

theorem step_blocked (l : Ledger) (request : Request) :
    (l.step limit request).2.2.blocked = true ↔ l.blocked = true ∨ (l.step limit request).1 = .spinning := by
  cases request with
  | lock dropAt =>
    rw [step]
    cases l.grantedAfter limit dropAt with
    | some pauses => simp [drop_eq]
    | none => simp
  | unlock => simp [step, drop_eq]
  | read => simp [step]
  | write word => simp [step, write_eq]
  | add word => simp [step, write_eq]

theorem after_blocked : ∀ (l : Ledger) (requests : List Request),
    (l.after limit requests).blocked = true ↔ l.blocked = true ∨ ∃ e ∈ l.run limit requests, e.reply = .spinning
  | l, [] => by simp [after, run]
  | l, request :: requests => by
    have hafter : l.after limit (request :: requests) = (l.step limit request).2.2.after limit requests := rfl
    have hreply : (l.entry limit request).reply = (l.step limit request).1 := rfl
    rw [hafter, after_blocked, step_blocked, run, or_assoc]
    simp only [List.mem_cons, exists_eq_or_imp, hreply]

theorem step_granted (l : Ledger) (request : Request) :
    (l.step limit request).2.2.granted = l.granted + if (l.step limit request).1 = .locked then 1 else 0 := by
  cases request with
  | lock dropAt =>
    rw [step]
    cases l.grantedAfter limit dropAt with
    | some pauses => simp [granted, dropped_drop]
    | none =>
      obtain hdropped | hkept := l.waited_eq limit dropAt
      · rw [hdropped]
        exact l.granted_drop
      · rw [hkept]
        rfl
  | unlock => exact l.granted_drop
  | read => rfl
  | write word => simp [step, write_eq, granted]
  | add word => simp [step, write_eq, granted]

theorem after_granted : ∀ (l : Ledger) (requests : List Request),
    (l.after limit requests).granted = l.granted + (l.run limit requests).countP fun e => e.reply = .locked
  | l, [] => rfl
  | l, request :: requests => by
    have hafter : l.after limit (request :: requests) = (l.step limit request).2.2.after limit requests := rfl
    have hreply : (l.entry limit request).reply = (l.step limit request).1 := rfl
    rw [hafter, after_granted, step_granted, run, List.countP_cons, hreply]
    simp only [decide_eq_true_eq]
    omega

theorem step_value (l : Ledger) (request : Request) :
    (l.step limit request).2.2.value = (l.entry limit request).written request l.value := by
  have hdrop : l.drop.value = l.value := by rw [drop_eq]
  cases request with
  | lock dropAt =>
    rw [entry, step]
    cases l.grantedAfter limit dropAt with
    | some pauses => exact hdrop
    | none =>
      obtain hdropped | hkept := l.waited_eq limit dropAt
      · rw [hdropped]
        exact hdrop
      · rw [hkept]
        rfl
  | unlock => exact hdrop
  | read =>
    simp only [step, entry, Entry.written, seen]
    cases l.held <;> rfl
  | write word =>
    simp only [step, entry, Entry.written, write_eq]
    cases l.held <;> rfl
  | add word =>
    simp only [step, entry, Entry.written, write_eq]
    cases l.held <;> rfl

theorem after_value : ∀ (l : Ledger) (requests : List Request),
    (l.after limit requests).value = written l.value requests (l.run limit requests)
  | l, [] => rfl
  | l, request :: requests => by
    have hafter : l.after limit (request :: requests) = (l.step limit request).2.2.after limit requests := rfl
    rw [hafter, after_value, step_value]
    rfl

end Ledger

namespace Session

/-! ### Waiting -/

theorem isServing_iff (lock : TicketLock UInt64) (ticket : UInt64) :
    lock.isServing ticket = true ↔ lock.nowServing.toNat = ticket.toNat := by
  rw [isServing, beq_iff_eq, UInt64.toNat_inj]

theorem any_between {time : Option Nat} {first last : Nat} :
    time.any (fun k => first ≤ k && k ≤ last) = true ↔ ∃ k, time = some k ∧ first ≤ k ∧ k ≤ last := by
  rw [Option.any_eq_true]
  refine exists_congr fun k => and_congr_right fun _ => ?_
  rw [Bool.and_eq_true, decide_eq_true_eq, decide_eq_true_eq]

/-- A wait whose ticket is not served before the limit takes all the PAUSEs, and
the guard is dropped if its time comes. -/
theorem wait_of_unserved {ticket : UInt64} {dropAt : Option Nat} : ∀ (left paused : Nat) (s : Session),
    (0 < left → s.lock.isServing ticket = false) →
    (∀ k, dropAt = some k → paused < k → k < paused + left → s.drop.lock.isServing ticket = false) →
    wait ticket dropAt left paused s =
      (false, paused + left, if dropAt.any (fun k => paused + 1 ≤ k && k ≤ paused + left) then s.drop else s)
  | 0, paused, s, _, _ => by
    have hnever : dropAt.any (fun k => paused + 1 ≤ k && k ≤ paused + 0) = false := by
      refine Bool.eq_false_iff.mpr fun h => ?_
      obtain ⟨k, -, hlt, hle⟩ := any_between.mp h
      omega
    rw [wait, hnever]
    rfl
  | left + 1, paused, s, hnow, hdrop => by
    rw [wait, hnow (Nat.succ_pos left), if_neg Bool.false_ne_true]
    by_cases hk : dropAt = some (paused + 1)
    · subst hk
      rw [if_pos rfl, wait_of_unserved left (paused + 1) s.drop (fun hleft => hdrop _ rfl (by omega) (by omega))
        fun k hk hlt => by cases hk; omega]
      have hpast : (some (paused + 1)).any (fun k => paused + 1 + 1 ≤ k && k ≤ paused + 1 + left) = false := by
        refine Bool.eq_false_iff.mpr fun h => ?_
        obtain ⟨k, hk, hlt, -⟩ := any_between.mp h
        have heq : paused + 1 = k := Option.some.inj hk
        omega
      have hnow : (some (paused + 1)).any (fun k => paused + 1 ≤ k && k ≤ paused + (left + 1)) = true :=
        any_between.mpr ⟨_, rfl, Nat.le_refl _, by omega⟩
      rw [hpast, hnow, Nat.add_assoc, Nat.add_comm 1 left]
      rfl
    · rw [if_neg hk, wait_of_unserved left (paused + 1) s (fun _ => hnow (Nat.succ_pos left))
        fun k hk' hlt hle => hdrop k hk' (by omega) (by omega)]
      have hsame : dropAt.any (fun k => paused + 1 + 1 ≤ k && k ≤ paused + 1 + left) =
          dropAt.any (fun k => paused + 1 ≤ k && k ≤ paused + (left + 1)) := by
        rw [Bool.eq_iff_iff, any_between, any_between]
        refine exists_congr fun k => and_congr_right fun hdropAt => ?_
        have hne : k ≠ paused + 1 := fun heq => hk (heq ▸ hdropAt)
        omega
      rw [hsame, Nat.add_assoc, Nat.add_comm 1 left]

/-- A wait in which the guard is dropped before the limit ends there, if that is
what its ticket waits for. -/
theorem wait_of_dropped {ticket : UInt64} {k : Nat} : ∀ (left paused : Nat) (s : Session),
    s.lock.isServing ticket = false → s.drop.lock.isServing ticket = true → paused < k → k < paused + left →
    wait ticket (some k) left paused s = (true, k, s.drop)
  | 0, _, _, _, _, _, _ => by omega
  | left + 1, paused, s, hnow, hdrop, hlt, hle => by
    rw [wait, hnow, if_neg Bool.false_ne_true]
    by_cases hk : k = paused + 1
    · subst hk
      obtain ⟨more, rfl⟩ := Nat.exists_eq_add_of_le' (show 1 ≤ left by omega)
      rw [if_pos rfl, wait, hdrop, if_pos rfl]
    · rw [if_neg fun heq => hk (Option.some.inj heq)]
      exact wait_of_dropped left (paused + 1) s hnow hdrop (by omega) (by omega)

/-! ### The queue -/

/-- The ledger of a session after so many requests for the lock. The tickets that
were given out are those of the guards dropped, of the guard held, and of requests
that were given up. -/
structure Tallied (requests : Nat) (s : Session) (l : Ledger) : Prop where
  value : s.lock.value = l.value
  held : s.held = l.held
  serving : s.lock.nowServing.toNat = l.dropped + 1
  next : s.lock.nextTicket.toNat = requests + 1
  queue : l.granted ≤ requests
  blocked : l.blocked = true ↔ l.granted < requests

theorem tallied_start (value : UInt64) : Tallied 0 (start value) (.start value) where
  value := rfl
  held := rfl
  serving := rfl
  next := rfl
  queue := Nat.le_refl 0
  blocked := by simp [Ledger.start, Ledger.granted]

namespace Tallied

variable {requests : Nat} {s : Session} {l : Ledger} (h : Tallied requests s l)

include h

theorem dropped_le : l.dropped ≤ requests := Nat.le_trans (Nat.le_add_right _ _) h.queue

theorem drop (hfew : requests + 1 < 2 ^ 64) : Tallied requests s.drop l.drop := by
  have hqueue := h.queue
  rw [Session.drop, Ledger.drop, h.held]
  cases hheld : l.held with
  | false => exact h
  | true =>
    simp only [Ledger.granted, hheld, Bool.toNat_true] at hqueue
    have hserving : (s.lock.nowServing + 1).toNat = l.dropped + 1 + 1 := by
      rw [UInt64.toNat_add, h.serving]
      exact Nat.mod_eq_of_lt (by change l.dropped + 1 + 1 < 2 ^ 64; omega)
    have hgranted : l.granted = l.dropped + 1 := by simp [Ledger.granted, hheld]
    exact {
      value := h.value
      held := rfl
      serving := hserving
      next := h.next
      queue := hqueue
      blocked := hgranted ▸ h.blocked }

/-- A ticket that was just given out is one that nobody was granted. -/
theorem take (hfew : requests + 2 < 2 ^ 64) :
    Tallied (requests + 1) { s with lock := s.lock.take.2 } { l with blocked := true } where
  value := h.value
  held := h.held
  serving := h.serving
  next := by
    change (s.lock.nextTicket + 1).toNat = _
    rw [UInt64.toNat_add, h.next]
    exact Nat.mod_eq_of_lt hfew
  queue := Nat.le_succ_of_le h.queue
  blocked := ⟨fun _ => Nat.lt_succ_of_le h.queue, fun _ => rfl⟩

theorem serves_iff {ticket : UInt64} {before : Nat} (hticket : ticket.toNat = before + 1) :
    s.lock.isServing ticket = true ↔ l.dropped = before := by
  rw [isServing_iff, h.serving, hticket, Nat.add_right_cancel_iff]

theorem not_serves {ticket : UInt64} {before : Nat} (hticket : ticket.toNat = before + 1) (hne : l.dropped ≠ before) :
    s.lock.isServing ticket = false :=
  Bool.eq_false_iff.mpr (mt (h.serves_iff hticket).mp hne)

theorem releases (hfew : requests + 1 < 2 ^ 64) : s.lock.releases = .ok (UInt64.ofNat l.dropped) := by
  have hle := h.dropped_le
  have hword : (UInt64.ofNat l.dropped).toNat = l.dropped := UInt64.toNat_ofNat_of_lt' (by
    change l.dropped < 2 ^ 64
    omega)
  have hserving : s.lock.nowServing = UInt64.ofNat l.dropped + 1 := by
    rw [← UInt64.toNat_inj, h.serving, UInt64.toNat_add, hword]
    exact (Nat.mod_eq_of_lt (by omega)).symm
  have hne : s.lock.nowServing ≠ 0 := by
    rw [Ne, ← UInt64.toNat_inj, h.serving]
    exact Nat.succ_ne_zero _
  rw [TicketLock.releases, if_neg hne, hserving, UInt64.add_sub_cancel]

/-- **A request is granted or given up as the ledger says.** -/
theorem acquire {limit : Nat} (hlimit : 1 ≤ limit) (hfew : requests + 2 < 2 ^ 64) (dropAt : Option Nat) :
    let taken : Session := { s with lock := s.lock.take.2 }
    s.acquire limit dropAt =
      match l.grantedAfter limit dropAt with
      | some pauses => (true, pauses, taken.drop)
      | none => (false, limit, if dropAt.any fun k => 1 ≤ k && k ≤ limit then taken.drop else taken) := by
  intro taken
  have htaken : Tallied (requests + 1) taken { l with blocked := true } := h.take hfew
  have hdropped := htaken.drop hfew
  have hacquire : s.acquire limit dropAt = wait s.lock.nextTicket dropAt limit 0 taken := by
    rw [Session.acquire, Nat.max_eq_right hlimit]
    rfl
  have hticket : s.lock.nextTicket.toNat = requests + 1 := h.next
  have hunserved (hnow : l.dropped ≠ requests)
      (hdrop : ∀ k, dropAt = some k → 0 < k → k < 0 + limit → l.granted ≠ requests) :
      wait s.lock.nextTicket dropAt limit 0 taken =
        (false, limit, if dropAt.any fun k => 1 ≤ k && k ≤ limit then taken.drop else taken) := by
    rw [wait_of_unserved limit 0 taken (fun _ => htaken.not_serves hticket hnow) fun k hk hlt hle =>
      hdropped.not_serves hticket (Ledger.dropped_drop _ ▸ hdrop k hk hlt hle), Nat.zero_add]
  rw [hacquire, Ledger.grantedAfter]
  cases hblocked : l.blocked with
  | true =>
    -- the tickets given up are before this one, whatever is dropped
    have hbehind : l.granted < requests := h.blocked.mp hblocked
    have hdropped : l.dropped ≤ l.granted := Nat.le_add_right _ _
    exact hunserved (by omega) fun _ _ _ _ => by omega
  | false =>
    have hall : l.granted = requests := Nat.le_antisymm h.queue
      (Nat.le_of_not_lt fun hlt => by simp [h.blocked.mpr hlt] at hblocked)
    cases hheld : l.held with
    | false =>
      have hserves : taken.lock.isServing s.lock.nextTicket = true :=
        (htaken.serves_iff hticket).mpr (by simpa [Ledger.granted, hheld] using hall)
      have hkept : taken.drop = taken := if_neg (by simp [taken, h.held, hheld])
      obtain ⟨more, rfl⟩ := Nat.exists_eq_add_of_le' hlimit
      rw [wait, hserves, hkept]
      rfl
    | true =>
      have hone : l.dropped + 1 = requests := by simpa [Ledger.granted, hheld] using hall
      by_cases hk : ∃ k, dropAt = some k ∧ 1 ≤ k ∧ k < limit
      · obtain ⟨k, rfl, hpos, hlt⟩ := hk
        have hnow : taken.lock.isServing s.lock.nextTicket = false := htaken.not_serves hticket (by
          change l.dropped ≠ requests
          omega)
        have hserves : taken.drop.lock.isServing s.lock.nextTicket = true :=
          (hdropped.serves_iff hticket).mpr ((Ledger.dropped_drop _).trans hall)
        have hin : (some k).filter (fun k => 1 ≤ k && k < limit) = some k :=
          Option.filter_eq_some_iff.mpr ⟨rfl, by simp [hpos, hlt]⟩
        rw [wait_of_dropped limit 0 taken hnow hserves hpos (by omega), if_neg Bool.false_ne_true, if_pos rfl, hin]
      · rw [hunserved (by omega) fun k hdropAt hpos hlt => absurd ⟨k, hdropAt, hpos, by omega⟩ hk]
        have hnever : dropAt.filter (fun k => 1 ≤ k && k < limit) = none := by
          refine Option.filter_eq_none_iff.mpr fun k hdropAt hin => hk ⟨k, hdropAt, ?_⟩
          simpa using hin
        rw [if_neg Bool.false_ne_true, if_pos rfl, hnever]

theorem access (change : UInt64 → UInt64) :
    (s.access change).1 = .value (l.write change).seen ∧ Tallied requests (s.access change).2 (l.write change) := by
  rw [Session.access, Ledger.write, h.held]
  cases hheld : l.held with
  | false => exact ⟨by simp [Ledger.seen, hheld], h⟩
  | true =>
    have hvalue : change s.lock.value = change l.value := congrArg change h.value
    refine ⟨by simp [Ledger.seen, hvalue], hvalue, rfl, h.serving, h.next, ?_, ?_⟩
    · simpa [Ledger.granted, hheld] using h.queue
    · simpa [Ledger.granted, hheld] using h.blocked

theorem lock {limit : Nat} (hlimit : 1 ≤ limit) (hfew : requests + 2 < 2 ^ 64) (dropAt : Option Nat) :
    (s.step limit (.lock dropAt)).1 = (l.step limit (.lock dropAt)).1 ∧
      (s.step limit (.lock dropAt)).2.1 = (l.step limit (.lock dropAt)).2.1 ∧
      Tallied (requests + 1) (s.step limit (.lock dropAt)).2.2 (l.step limit (.lock dropAt)).2.2 := by
  have htaken := h.take hfew
  have hdropped := htaken.drop hfew
  have hblocked : ({ l with blocked := true } : Ledger).drop = { l.drop with blocked := true } := by
    rw [Ledger.drop_eq, Ledger.drop_eq]
    rfl
  rw [hblocked] at hdropped
  rw [Session.step, h.acquire hlimit hfew dropAt, Ledger.step]
  cases hgranted : l.grantedAfter limit dropAt with
  | some pauses =>
    have hone : ({ l.drop with held := true } : Ledger).granted = l.granted + 1 := by
      rw [Ledger.granted, Ledger.dropped_drop]
      rfl
    refine ⟨rfl, rfl, hdropped.value, rfl, hdropped.serving, hdropped.next, ?_, ?_⟩
    · rw [hone]
      exact Nat.succ_le_succ h.queue
    · rw [hone, Nat.add_lt_add_iff_right, ← h.blocked, l.drop_eq]
  | none =>
    refine ⟨rfl, rfl, ?_⟩
    simp only [Ledger.waited]
    by_cases hany : (dropAt.any fun k => 1 ≤ k && k ≤ limit) = true
    · simp only [if_pos hany]
      exact hdropped
    · simp only [if_neg hany]
      exact htaken

/-- **One request is answered as the ledger says**, and the session stands as the
ledger does after it. -/
theorem step {limit : Nat} (hlimit : 1 ≤ limit) (request : Request)
    (hfew : requests + request.isLock.toNat + 1 < 2 ^ 64) :
    (s.step limit request).1 = (l.step limit request).1 ∧
      (s.step limit request).2.1 = (l.step limit request).2.1 ∧
      Tallied (requests + request.isLock.toNat) (s.step limit request).2.2 (l.step limit request).2.2 := by
  cases request with
  | lock dropAt => exact h.lock hlimit hfew dropAt
  | unlock => exact ⟨rfl, rfl, h.drop hfew⟩
  | read =>
    have hkept : l.write id = l := by
      rw [Ledger.write, id]
      exact ite_self l
    obtain ⟨hreply, hafter⟩ := h.access id
    rw [hkept] at hreply hafter
    exact ⟨hreply, rfl, hafter⟩
  | write word => exact ⟨(h.access fun _ => word).1, rfl, (h.access fun _ => word).2⟩
  | add word => exact ⟨(h.access (· + word)).1, rfl, (h.access (· + word)).2⟩

end Tallied

/-! ### Runs -/

/-- **A session goes as its ledger does**, by recursion on the requests. -/
theorem run_eq_ledger {limit : Nat} (hlimit : 1 ≤ limit) : ∀ (requests : List Request) (before : Nat) (s : Session)
    (l : Ledger), Tallied before s l → before + requests.countP Request.isLock + 1 < 2 ^ 64 →
    run limit s requests = l.run limit requests ∧
      (l.after limit requests).dropped ≤ before + requests.countP Request.isLock
  | [], _, _, _, h, _ => ⟨rfl, h.dropped_le⟩
  | request :: requests, before, s, l, h, hfew => by
    have hcount : (request :: requests).countP Request.isLock =
        request.isLock.toNat + requests.countP Request.isLock := by
      rw [List.countP_cons]
      cases request.isLock <;> simp [Nat.add_comm]
    rw [hcount] at hfew ⊢
    obtain ⟨hreply, hpauses, hafter⟩ := h.step hlimit request (by omega)
    have hreleases := hafter.releases (by omega)
    obtain ⟨hrest, hdropped⟩ := run_eq_ledger hlimit requests _ _ _ hafter (by omega)
    refine ⟨?_, by rw [← Nat.add_assoc]; exact hdropped⟩
    have hrun : run limit s (request :: requests) =
      ⟨(s.step limit request).1, (s.step limit request).2.1, (s.step limit request).2.2.lock.releases⟩ ::
        run limit (s.step limit request).2.2 requests := rfl
    rw [hrun, hreply, hpauses, hreleases, hrest]
    rfl

/-- What the ledger of a run tells of its next entry, given the requests and the
entries before it. -/
structure Explained (limit : Nat) (value : UInt64) (before : List Request) (earlier : List Entry)
    (request : Request) (entry : Entry) : Prop where
  /-- The lock is granted unless a request was given up before, and then at once, or
  when the guard held before is dropped. -/
  granted_iff : ∀ dropAt, request = .lock dropAt →
    (entry.reply = .locked ↔
      (∀ e ∈ earlier, e.reply ≠ .spinning) ∧
        (((Ledger.start value).after limit before).held = false ∨ ∃ k, dropAt = some k ∧ 1 ≤ k ∧ k < limit))
  /-- A grant comes at the PAUSE at which the guard is dropped. -/
  grant_pauses : ∀ dropAt, request = .lock dropAt → entry.reply = .locked →
    if ((Ledger.start value).after limit before).held then dropAt = some entry.pauses else entry.pauses = 0
  /-- Whoever is not granted the lock waits to the limit. -/
  given_up : ∀ dropAt, request = .lock dropAt → entry.reply ≠ .locked →
    entry.reply = .spinning ∧ entry.pauses = limit
  /-- The lock counts the guards dropped. -/
  releases : ((Ledger.start value).after limit (before ++ [request])).dropped < 2 ^ 64 ∧
    entry.releases = .ok (UInt64.ofNat ((Ledger.start value).after limit (before ++ [request])).dropped)
  /-- A guard that was granted is held or dropped. -/
  guards : ((Ledger.start value).after limit (before ++ [request])).granted =
    (earlier ++ [entry]).countP fun e => e.reply = .locked
  /-- A guard shows the value with all that was written through guards. -/
  value : request.isAccess = true →
    entry.reply = .value
      (if ((Ledger.start value).after limit before).held then
        some (written value (before ++ [request]) (earlier ++ [entry]))
      else none) ∧ entry.pauses = 0

/-- The ledger explains its own entries. -/
theorem explained {limit : Nat} {value : UInt64} {before : List Request} {request : Request}
    (hfew : ((Ledger.start value).after limit (before ++ [request])).dropped < 2 ^ 64) :
    Explained limit value before ((Ledger.start value).run limit before) request
      (((Ledger.start value).after limit before).entry limit request) := by
  have hafter := (Ledger.start value).after_concat limit before request
  have hnever : ((Ledger.start value).after limit before).blocked = false ↔
      ∀ e ∈ (Ledger.start value).run limit before, e.reply ≠ .spinning := by
    rw [← Bool.not_eq_true, Ledger.after_blocked]
    simp [Ledger.start]
  have hgranted := (Ledger.start value).after_granted limit (before ++ [request])
  have hvalue := (Ledger.start value).after_value limit (before ++ [request])
  have hrun : (Ledger.start value).run limit (before ++ [request]) = (Ledger.start value).run limit before ++
      [((Ledger.start value).after limit before).entry limit request] := Ledger.run_concat ..
  rw [hrun] at hgranted hvalue
  refine ⟨?_, ?_, ?_, ⟨hfew, by rw [hafter]; rfl⟩, ?_, ?_⟩
  · rintro dropAt rfl
    rw [Ledger.entry_locked_iff, hnever]
  · rintro dropAt rfl
    exact Ledger.entry_of_locked _
  · rintro dropAt rfl
    exact Ledger.entry_of_not_locked _
  · simpa [Ledger.start, Ledger.granted] using hgranted
  · intro haccess
    have hstart : (Ledger.start value).value = value := rfl
    rw [hstart] at hvalue
    rw [← hvalue, hafter]
    exact Ledger.entry_of_access limit _ haccess

/-- **One driver sees of its lock what the ledger says**: every entry of every run
is the ledger's, and is explained by what was seen before it. A request that was
given up is so for good: none is granted after it. -/
theorem answered_by_ledger (value : UInt64) (limit : Nat) (requests : List Request) (hlimit : 1 ≤ limit)
    (hfew : requests.countP Request.isLock < 2 ^ 64 - 1) :
    let entries := run limit (start value) requests
    entries = (Ledger.start value).run limit requests ∧ entries.length = requests.length ∧
      ∀ i request, requests[i]? = some request → ∃ entry, entries[i]? = some entry ∧
        Explained limit value (requests.take i) (entries.take i) request entry := by
  intro entries
  have hrun : entries = (Ledger.start value).run limit requests :=
    (run_eq_ledger hlimit requests 0 _ _ (tallied_start value) (by omega)).1
  refine ⟨hrun, hrun ▸ Ledger.length_run .., fun i request hi => ?_⟩
  refine ⟨((Ledger.start value).after limit (requests.take i)).entry limit request, ?_, ?_⟩
  · rw [hrun, Ledger.getElem?_run, hi]
    rfl
  · have hsplit : requests.take i ++ [request] = requests.take (i + 1) := by
      rw [List.take_add_one, hi, Option.toList_some]
    have hfewer : (requests.take (i + 1)).countP Request.isLock ≤ requests.countP Request.isLock :=
      (requests.take_sublist (i + 1)).countP_le
    have hdropped := (run_eq_ledger hlimit (requests.take (i + 1)) 0 _ _ (tallied_start value) (by omega)).2
    rw [hrun, Ledger.take_run]
    exact explained (by rw [hsplit]; omega)

/-- A guard dropped in the middle of a wait, and one dropped at the limit: then the
lock is free, and still never granted. -/
theorem answered_by_ledger_given_up :
    let requests : List Request :=
      [.lock none, .add 5, .lock (some 1), .add 2, .read, .lock (some 3), .read, .lock none]
    let entries := run 3 (start 7) requests
    entries.map (fun e => (e.reply, e.pauses)) =
        [(.locked, 0), (.value (some 12), 0), (.locked, 1), (.value (some 14), 0), (.value (some 14), 0),
          (.spinning, 3), (.value none, 0), (.spinning, 3)] ∧
      ∃ entry, entries[7]? = some entry ∧
        Explained 3 7 (requests.take 7) (entries.take 7) (.lock none) entry :=
  ⟨by decide, (answered_by_ledger 7 3 _ (by decide) (by decide)).2.2 7 (.lock none) rfl⟩

end Session
end TicketLock
end SyscallGate
