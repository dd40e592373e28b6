/-
# The lock is granted in the order of arrival

Arrival is the taking of a ticket; the lock is granted later, after many looks
at the counter, each of which may come at any time. The history keeps both, and
the giving up too. What was taken and not yet given up is the line
(`Orderly.queued`), and of those in line only the first may have been let in
(`Orderly.free`, `Orderly.held`). So the grants are an initial part of the
arrivals, and a grant finds everybody who came before gone.

Key definitions: `Contenders.inOrder`, `Contenders.InTurn`, `Contenders.Orderly`.
Key theorems: `Contenders.Orderly.move`, `Contenders.Orderly.granted_prefix`,
`Contenders.served_in_order`.
-/
import SyscallGate.Proofs.TicketLock.Line

namespace SyscallGate
namespace TicketLock
namespace Contenders

/-! ### What a history says -/

/-- The contender and the ticket it took. -/
def Event.took? : Event → Option (Nat × UInt64)
  | took who ticket => some (who, ticket)
  | _ => none

/-- The contender that was let in, and its ticket. -/
def Event.entered? : Event → Option (Nat × UInt64)
  | entered who ticket => some (who, ticket)
  | _ => none

/-- The contender that gave the lock up, and its ticket. -/
def Event.left? : Event → Option (Nat × UInt64)
  | left who ticket => some (who, ticket)
  | _ => none

/-- What the events of one kind say, in the order they happened. -/
def inOrder (pick : Event → Option (Nat × UInt64)) (history : List Event) : List (Nat × UInt64) :=
  history.reverse.filterMap pick

theorem inOrder_cons (pick : Event → Option (Nat × UInt64)) (event : Event) (earlier : List Event) :
    inOrder pick (event :: earlier) = inOrder pick earlier ++ (pick event).toList := by
  cases h : pick event <;> simp [inOrder, h]

theorem inOrder_cons_none {pick : Event → Option (Nat × UInt64)} {event : Event}
    (h : pick event = none) (earlier : List Event) :
    inOrder pick (event :: earlier) = inOrder pick earlier := by
  rw [inOrder_cons, h]
  exact List.append_nil _

/-! ### The line and the history -/

/-- Every grant in a history found the lock given up as often as it was granted,
by all who took a ticket before. -/
def InTurn (history : List Event) : Prop :=
  ∀ who ticket earlier, .entered who ticket :: earlier <:+ history →
    ∃ later, inOrder Event.took? earlier = inOrder Event.left? earlier ++ (who, ticket) :: later

theorem InTurn.cons {history : List Event} {event : Event} (h : InTurn history)
    (hevent : event.entered? = none) : InTurn (event :: history) := by
  intro who ticket earlier hsuffix
  rcases List.suffix_cons_iff.mp hsuffix with heq | hsuffix
  · obtain ⟨rfl, -⟩ := List.cons.inj heq
    simp [Event.entered?] at hevent
  · exact h who ticket earlier hsuffix

/-- The history as the line has it. -/
structure Orderly (s : Contenders) : Prop where
  inLine : InLine s
  /-- Who took a ticket gave the lock up, in the same order, or stands in line. -/
  queued : inOrder Event.took? s.history = inOrder Event.left? s.history ++ line s.history
  /-- With nobody inside, every grant was given up. -/
  free : (∀ who, (s.phaseOf who).inside = false) →
    inOrder Event.entered? s.history = inOrder Event.left? s.history
  /-- With somebody inside, every grant but that one. -/
  held : ∀ who ticket, (s.phaseOf who).inside = true → (s.phaseOf who).ticket? = some ticket →
    inOrder Event.entered? s.history = inOrder Event.left? s.history ++ [(who, ticket)]
  inTurn : InTurn s.history

theorem orderly_start (value : UInt64) (rounds : List Nat) : Orderly (start value rounds) := by
  refine ⟨inLine_start value rounds, rfl, fun _ => rfl, fun who ticket hin hticket => ?_, ?_⟩
  · obtain ⟨rest, hline⟩ := (inLine_start value rounds).first who ticket hin hticket
    simp [start, line] at hline
  · intro who ticket earlier hsuffix
    have := hsuffix.length_le
    simp [start] at this

namespace Orderly

variable {s s' : Contenders} (h : Orderly s) {who : Nat} {worker next : Worker}

include h

/-- **The grants are an initial part of the arrivals.** -/
theorem granted_prefix : inOrder Event.entered? s.history <+: inOrder Event.took? s.history := by
  rw [h.queued]
  by_cases hin : ∃ who, (s.phaseOf who).inside = true
  · obtain ⟨who, hin⟩ := hin
    obtain ⟨ticket, hticket⟩ := Phase.ticket?_of_inside hin
    obtain ⟨rest, hline⟩ := h.inLine.first who ticket hin hticket
    rw [h.held who ticket hin hticket, hline]
    exact ⟨rest, by simp⟩
  · rw [h.free fun who => by simpa using fun hwho => hin ⟨who, hwho⟩]
    exact List.prefix_append _ _

theorem proceed (hline : InLine s') (hworker : s.workers[who]? = some worker)
    (hworkers : s'.workers = s.workers.set who next) (hinside : next.phase.inside = worker.phase.inside)
    (hticket : worker.phase.inside = true → next.phase.ticket? = worker.phase.ticket?)
    (hqueued : inOrder Event.took? s'.history = inOrder Event.left? s'.history ++ line s'.history)
    (hgranted : inOrder Event.entered? s'.history = inOrder Event.entered? s.history)
    (hdropped : inOrder Event.left? s'.history = inOrder Event.left? s.history)
    (hinTurn : InTurn s'.history) : Orderly s' := by
  have hphases := phaseOf_set hworker hworkers
  have hinsides : ∀ w, (s'.phaseOf w).inside = (s.phaseOf w).inside := fun w => by
    rw [hphases]
    by_cases hw : w = who
    · rw [if_pos hw, hw, phaseOf_eq hworker, hinside]
    · rw [if_neg hw]
  refine ⟨hline, hqueued, fun hfree => ?_, fun w ticket hin ht => ?_, hinTurn⟩
  · rw [hgranted, hdropped]
    exact h.free fun w => (hinsides w).symm.trans (hfree w)
  · rw [hinsides] at hin
    rw [hgranted, hdropped]
    refine h.held w ticket hin ?_
    rw [hphases] at ht
    by_cases hw : w = who
    · subst hw
      rw [if_pos rfl] at ht
      rw [phaseOf_eq hworker] at hin ⊢
      exact (hticket hin).symm.trans ht
    · rwa [if_neg hw] at ht

theorem enter {ticket : UInt64} (hline : InLine s') (hworker : s.workers[who]? = some worker)
    (hphase : worker.phase = .waiting ticket) {rest : List (Nat × UInt64)}
    (hfirst : line s.history = (who, ticket) :: rest) (hnext : next.phase = .holding ticket)
    (hworkers : s'.workers = s.workers.set who next)
    (hhistory : s'.history = .entered who ticket :: s.history) : Orderly s' := by
  have hphases := phaseOf_set hworker hworkers
  -- whoever is inside is the first in line, and that one waits
  have hfree : ∀ w, (s.phaseOf w).inside = false := fun w => by
    by_contra hin
    have hin : (s.phaseOf w).inside = true := by simpa using hin
    obtain ⟨t, ht⟩ := Phase.ticket?_of_inside hin
    obtain ⟨_, hfirst'⟩ := h.inLine.first w t hin ht
    rw [hfirst] at hfirst'
    obtain ⟨heq, -⟩ := List.cons.inj hfirst'
    have hw : who = w := congrArg Prod.fst heq
    rw [← hw, phaseOf_eq hworker, hphase] at hin
    simp [Phase.inside] at hin
  have hgranted : inOrder Event.entered? s'.history = inOrder Event.left? s.history ++ [(who, ticket)] := by
    rw [hhistory, inOrder_cons, h.free hfree]
    rfl
  have hdropped : inOrder Event.left? s'.history = inOrder Event.left? s.history := by
    rw [hhistory, inOrder_cons_none rfl]
  refine ⟨hline, ?_, fun hnobody => ?_, fun w t hin ht => ?_, ?_⟩
  · rw [hdropped, hhistory, inOrder_cons_none rfl, h.queued]
    rfl
  · have hwho := hnobody who
    rw [hphases, if_pos rfl, hnext] at hwho
    cases hwho
  · rw [hgranted, hdropped]
    rw [hphases] at hin ht
    by_cases hw : w = who
    · rw [if_pos hw, hnext] at ht
      rw [hw, Option.some.inj ht]
    · rw [if_neg hw, hfree w] at hin
      cases hin
  · intro w t earlier hsuffix
    rw [hhistory] at hsuffix
    rcases List.suffix_cons_iff.mp hsuffix with heq | hsuffix
    · cases heq
      exact ⟨rest, by rw [h.queued, hfirst]⟩
    · exact h.inTurn w t earlier hsuffix

theorem leave {ticket : UInt64} (hline : InLine s') (hworker : s.workers[who]? = some worker)
    (hphase : worker.phase = .stored ticket) (hnext : next.phase = .idle)
    (hworkers : s'.workers = s.workers.set who next)
    (hhistory : s'.history = .left who ticket :: s.history) : Orderly s' := by
  have hphases := phaseOf_set hworker hworkers
  have hwho : s.phaseOf who = .stored ticket := (phaseOf_eq hworker).trans hphase
  obtain ⟨rest, hfirst⟩ := h.inLine.first_of_inside hworker (by rw [hphase]; rfl) (by rw [hphase]; rfl)
  have hgranted := h.held who ticket (by rw [hwho]; rfl) (by rw [hwho]; rfl)
  have hdropped : inOrder Event.left? s'.history = inOrder Event.left? s.history ++ [(who, ticket)] := by
    rw [hhistory, inOrder_cons]
    rfl
  refine ⟨hline, ?_, fun _ => ?_, fun w t hin _ => ?_, ?_⟩
  · have hrest : line s'.history = rest := by rw [hhistory, line, hfirst, List.tail_cons]
    have htaken : inOrder Event.took? s'.history = inOrder Event.took? s.history := by
      rw [hhistory, inOrder_cons_none rfl]
    rw [htaken, hdropped, hrest, h.queued, hfirst, List.append_assoc]
    rfl
  · rw [hdropped, ← hgranted, hhistory, inOrder_cons_none rfl]
  · rw [hphases] at hin
    by_cases hw : w = who
    · rw [if_pos hw, hnext] at hin
      cases hin
    · rw [if_neg hw] at hin
      exact absurd (h.inLine.eq_of_inside hin (by rw [hwho]; rfl)) hw
  · rw [hhistory]
    exact h.inTurn.cons rfl

/-- **Every move keeps the order.** -/
theorem move (hout : s.outstanding < 2 ^ 64) (hmove : Move s who s') : Orderly s' := by
  have hline := h.inLine.move hout hmove
  cases hmove with
  | stay => exact h
  | take hworker hphase _ =>
    refine h.proceed hline hworker rfl (by rw [hphase]; rfl) (fun hin => ?_) ?_ ?_ ?_ ?_
    · rw [hphase] at hin
      cases hin
    · rw [inOrder_cons, inOrder_cons_none rfl, line, h.queued, List.append_assoc]
      rfl
    · rw [inOrder_cons_none rfl]
    · rw [inOrder_cons_none rfl]
    · exact h.inTurn.cons rfl
  | @enter worker ticket hworker hphase hserving =>
    obtain ⟨rest, hfirst⟩ := h.inLine.first_of_served hout hworker hphase hserving
    exact h.enter hline hworker hphase hfirst rfl rfl rfl
  | load hworker hphase =>
    exact h.proceed hline hworker rfl (by rw [hphase]; rfl) (fun _ => by rw [hphase]; rfl)
      h.queued rfl rfl h.inTurn
  | store hworker hphase =>
    exact h.proceed hline hworker rfl (by rw [hphase]; rfl) (fun _ => by rw [hphase]; rfl)
      h.queued rfl rfl h.inTurn
  | leave hworker hphase => exact h.leave hline hworker hphase rfl rfl rfl

end Orderly

/-- **First come, first served.** While fewer tickets are out than the counter
has values, the grants are an initial part of the arrivals, ticket by ticket;
and at each grant, everybody who had taken an earlier ticket had given the lock
up. -/
theorem served_in_order (value : UInt64) (rounds schedule : List Nat)
    (hout : ∀ early, early <+: schedule → ((start value rounds).run early).outstanding < 2 ^ 64) :
    let history := ((start value rounds).run schedule).history
    inOrder Event.entered? history <+: inOrder Event.took? history ∧
      ∀ who ticket earlier, .entered who ticket :: earlier <:+ history →
        ∃ later, inOrder Event.took? earlier = inOrder Event.left? earlier ++ (who, ticket) :: later := by
  have horderly : Orderly ((start value rounds).run schedule) :=
    run_keeps (fun _ _ _ hout hmove h => h.move hout hmove) schedule _ (orderly_start value rounds) hout
  exact ⟨horderly.granted_prefix, horderly.inTurn⟩

/-- Three contenders that look out of turn: the last to come looks first. -/
theorem served_in_order_last_looks_first :
    let history := ((start 0 [1, 1, 1]).run [2, 0, 1, 1, 0, 2, 1, 2, 2, 2, 1, 0, 0, 0]).history
    inOrder Event.entered? history = [(2, 1), (0, 2)] ∧
      inOrder Event.took? history = [(2, 1), (0, 2), (1, 3)] ∧
      inOrder Event.entered? history <+: inOrder Event.took? history :=
  ⟨by decide, by decide, (served_in_order 0 [1, 1, 1] _
    fun early _ => outstanding_run_lt (by decide) 0 early).1⟩

end Contenders
end TicketLock
end SyscallGate
