/-
# No sum is lost

Adding one is two steps, a load and a store, and between them any contender may
take steps of its own. Still nothing is lost: only the contender that was let in
touches the value, and there is never more than one. So a word that was loaded
is the value until it is stored (`Tallied.fresh`), each store adds one, and the
value together with the sums that are still due is what it was at the start
(`Tallied.total`), modulo `2 ^ 64`, in every state of every schedule.

Key definitions: `Contenders.Worker.due`, `Contenders.Tallied`.
Key theorems: `Contenders.Tallied.move`, `Contenders.tallied_run`,
`Contenders.exclusive_and_exact`.
-/
import Mathlib.Algebra.Ring.Nat
import Mathlib.Data.List.Forall2
import SyscallGate.Proofs.TicketLock.Line

namespace SyscallGate
namespace TicketLock
namespace Contenders

/-- The sums that a contender still has to store. A round whose sum is stored
is finished as far as the value goes, though the lock is still to be given up. -/
def Worker.due (worker : Worker) : Nat :=
  match worker.phase with
  | .stored _ => worker.rounds - 1
  | _ => worker.rounds

theorem sum_map_set {α : Type} (f : α → Nat) {a b : α} : ∀ {l : List α} {i : Nat}, l[i]? = some a →
    ((l.set i b).map f).sum + f a = (l.map f).sum + f b
  | x :: l, 0, h => by
    obtain rfl : x = a := by simpa using h
    simp only [List.set_cons_zero, List.map_cons, List.sum_cons]
    omega
  | x :: l, i + 1, h => by
    have ih := sum_map_set f (b := b) (l := l) (i := i) (by simpa using h)
    simp only [List.set_cons_succ, List.map_cons, List.sum_cons]
    omega

/-- The value and what is still due come to what there was at the start. -/
structure Tallied (value : UInt64) (rounds : List Nat) (s : Contenders) : Prop where
  inLine : InLine s
  /-- Nobody stands in line without a round to finish. -/
  started : ∀ worker ∈ s.workers, worker.phase ≠ .idle → 0 < worker.rounds
  /-- What was loaded is still the value. -/
  fresh : ∀ who ticket word, s.phaseOf who = .loaded ticket word → word = s.lock.value
  total : s.lock.value + UInt64.ofNat (s.workers.map Worker.due).sum =
    value + UInt64.ofNat rounds.sum

variable {value : UInt64} {rounds : List Nat}

theorem tallied_start (value : UInt64) (rounds : List Nat) : Tallied value rounds (start value rounds) := by
  refine ⟨inLine_start value rounds, fun worker hmem hbusy => ?_, fun who ticket word h => ?_, ?_⟩
  · obtain ⟨n, -, rfl⟩ := List.mem_map.mp hmem
    exact absurd rfl hbusy
  · have hin : ((start value rounds).phaseOf who).ticket? = some ticket := by rw [h]; rfl
    have := ((inLine_start value rounds).mem_iff who ticket).mpr hin
    simp [start, line] at this
  · have hdue : (rounds.map fun n => (⟨.idle, n⟩ : Worker)).map Worker.due = rounds := by
      rw [List.map_map]
      exact List.map_id' rounds
    simp [start, TicketLock.new, hdue]

namespace Tallied

variable {s s' : Contenders} (h : Tallied value rounds s) {who : Nat} {worker next : Worker}

include h

theorem proceed (hline : InLine s') (hworker : s.workers[who]? = some worker)
    (hworkers : s'.workers = s.workers.set who next) (hvalue : s'.lock.value = s.lock.value)
    (hdue : next.due = worker.due) (hstarted : next.phase ≠ .idle → 0 < next.rounds)
    (hfresh : ∀ ticket word, next.phase = .loaded ticket word → word = s.lock.value) :
    Tallied value rounds s' := by
  refine ⟨hline, fun w hmem hbusy => ?_, fun w ticket word hw => ?_, ?_⟩
  · rw [hworkers] at hmem
    rcases List.mem_or_eq_of_mem_set hmem with hold | rfl
    · exact h.started w hold hbusy
    · exact hstarted hbusy
  · rw [phaseOf_set hworker hworkers] at hw
    rw [hvalue]
    by_cases heq : w = who
    · rw [if_pos heq] at hw
      exact hfresh ticket word hw
    · rw [if_neg heq] at hw
      exact h.fresh w ticket word hw
  · have hsum := sum_map_set Worker.due (b := next) hworker
    rw [hdue] at hsum
    rw [hvalue, hworkers, Nat.add_right_cancel hsum]
    exact h.total

/-- A contender stores its sum: one more than the value, and one less is due. -/
theorem store {ticket word : UInt64} (hline : InLine s') (hworker : s.workers[who]? = some worker)
    (hphase : worker.phase = .loaded ticket word) (hnext : next = { worker with phase := .stored ticket })
    (hworkers : s'.workers = s.workers.set who next) (hvalue : s'.lock.value = word + 1) :
    Tallied value rounds s' := by
  have hmem := List.mem_of_getElem? hworker
  have hrounds : 0 < worker.rounds := h.started worker hmem (by rw [hphase]; simp)
  have hwho : s.phaseOf who = .loaded ticket word := (phaseOf_eq hworker).trans hphase
  have hword : word = s.lock.value := h.fresh who ticket word hwho
  refine ⟨hline, fun w hmem hbusy => ?_, fun w t loaded hw => ?_, ?_⟩
  · rw [hworkers] at hmem
    rcases List.mem_or_eq_of_mem_set hmem with hold | rfl
    · exact h.started w hold hbusy
    · rw [hnext]
      exact hrounds
  · -- whoever else has loaded the value would be inside as well
    rw [phaseOf_set hworker hworkers] at hw
    by_cases heq : w = who
    · rw [if_pos heq, hnext] at hw
      cases hw
    · rw [if_neg heq] at hw
      exact absurd (h.inLine.eq_of_inside (by rw [hw]; rfl) (by rw [hwho]; rfl)) heq
  · have hsum := sum_map_set Worker.due (b := next) hworker
    have hdue : worker.due = next.due + 1 := by
      simp only [Worker.due, hphase, hnext]
      omega
    have hleft : (s.workers.map Worker.due).sum = (s'.workers.map Worker.due).sum + 1 := by
      rw [hworkers]
      omega
    calc s'.lock.value + UInt64.ofNat (s'.workers.map Worker.due).sum
        = s.lock.value + 1 + UInt64.ofNat (s'.workers.map Worker.due).sum := by rw [hvalue, hword]
      _ = s.lock.value + UInt64.ofNat ((s'.workers.map Worker.due).sum + 1) := (add_ofNat_succ _ _).symm
      _ = s.lock.value + UInt64.ofNat (s.workers.map Worker.due).sum := by rw [hleft]
      _ = value + UInt64.ofNat rounds.sum := h.total

/-- **Every move keeps the total.** -/
theorem move (hout : s.outstanding < 2 ^ 64) (hmove : Move s who s') : Tallied value rounds s' := by
  have hline := h.inLine.move hout hmove
  cases hmove with
  | stay => exact h
  | take hworker hphase hrounds =>
    refine h.proceed hline hworker rfl rfl ?_ (fun _ => Nat.pos_of_ne_zero hrounds) ?_
    · simp only [Worker.due, hphase]
    · intro ticket word hloaded
      cases hloaded
  | @enter worker ticket hworker hphase _ =>
    have hrounds := h.started worker (List.mem_of_getElem? hworker) (by rw [hphase]; simp)
    refine h.proceed hline hworker rfl rfl ?_ (fun _ => hrounds) ?_
    · simp only [Worker.due, hphase]
    · intro ticket word hloaded
      cases hloaded
  | @load worker ticket hworker hphase =>
    have hrounds := h.started worker (List.mem_of_getElem? hworker) (by rw [hphase]; simp)
    refine h.proceed hline hworker rfl rfl ?_ (fun _ => hrounds) ?_
    · simp only [Worker.due, hphase]
    · intro ticket word hloaded
      cases hloaded
      rfl
  | store hworker hphase => exact h.store hline hworker hphase rfl rfl rfl
  | leave hworker hphase =>
    refine h.proceed hline hworker rfl rfl ?_ (fun hbusy => absurd rfl hbusy) ?_
    · simp only [Worker.due, hphase]
    · intro ticket word hloaded
      cases hloaded

end Tallied

theorem tallied_run (value : UInt64) {rounds : List Nat} (hfew : rounds.length < 2 ^ 64)
    (schedule : List Nat) : Tallied value rounds ((start value rounds).run schedule) :=
  run_keeps (fun _ _ _ hout hmove h => h.move hout hmove) schedule _ (tallied_start value rounds)
    fun early _ => outstanding_run_lt hfew value early

/-- What is due is what there was, less `n` for each contender that stored `n` sums. -/
theorem sum_due_of_stored {n : Nat} {workers : List Worker} {rounds : List Nat}
    (h : workers.Forall₂ (fun worker total => worker.due + n = total) rounds) :
    (workers.map Worker.due).sum + rounds.length * n = rounds.sum := by
  induction h with
  | nil => simp
  | cons hstored _ ih =>
    simp only [List.map_cons, List.sum_cons, List.length_cons, Nat.add_mul, Nat.one_mul]
    omega

/-- **At most one contender is inside, and no sum is lost.** In every state that
a schedule leads to, whoever was let in and has not given the lock up is alone;
and when every contender has stored `n` sums, the value has grown by `n` for
each of them. -/
theorem exclusive_and_exact (value : UInt64) (rounds : List Nat) (hfew : rounds.length < 2 ^ 64)
    (schedule : List Nat) :
    (∀ i j, (((start value rounds).run schedule).phaseOf i).inside = true →
      (((start value rounds).run schedule).phaseOf j).inside = true → i = j) ∧
    ∀ n, ((start value rounds).run schedule).workers.Forall₂
        (fun worker total => worker.due + n = total) rounds →
      ((start value rounds).run schedule).lock.value = value + UInt64.ofNat (rounds.length * n) := by
  have htallied : Tallied value rounds ((start value rounds).run schedule) :=
    tallied_run value hfew schedule
  refine ⟨fun i j hi hj => htallied.inLine.eq_of_inside hi hj, fun n hstored => ?_⟩
  have htotal := htallied.total
  rw [← sum_due_of_stored hstored, UInt64.ofNat_add] at htotal
  grind

/-- Two contenders whose steps are mixed, at a value that goes around: the
second waits in the middle of the first one's sum. -/
theorem exclusive_and_exact_mixed :
    ((start 0xffffffffffffffff [2, 2]).run
      [0, 1, 0, 1, 0, 1, 0, 0, 0, 1, 1, 0, 1, 1, 1, 1, 0, 0, 0, 0, 1, 1, 1, 1]).lock.value = 3 :=
  (exclusive_and_exact 0xffffffffffffffff [2, 2] (by decide) _).2 2
    (.cons rfl (.cons rfl .nil))

end Contenders
end TicketLock
end SyscallGate
