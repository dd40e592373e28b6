/-
# The lock counts those who are done with it

The count that the lock gives of itself is the ticket it serves, less the first
one. It moves when the lock is given up and not when it is granted: whoever is let
in only looks. So it says how many have given the lock up, and while somebody holds
the lock it was granted once more than that (`releases_eq_left`).

As long as fewer tickets were taken than the counter has values, the counter has
not come around, as every ticket taken is given up or still out
(`Counted.arrived`).

Key definitions: `Contenders.countOf`, `Contenders.Counted`.
Key theorems: `Contenders.Counted.move`, `Contenders.Counted.releases`,
`Contenders.Counted.releases_of_entered`, `Contenders.Counted.releases_of_left`,
`Contenders.releases_eq_left`.
-/
import SyscallGate.Proofs.TicketLock.Turns

namespace SyscallGate
namespace TicketLock
namespace Contenders

/-- How many events of one kind a history has. -/
def countOf (pick : Event → Option (Nat × UInt64)) (history : List Event) : Nat := (inOrder pick history).length

theorem countOf_cons (pick : Event → Option (Nat × UInt64)) (event : Event) (earlier : List Event) :
    countOf pick (event :: earlier) = countOf pick earlier + (pick event).toList.length := by
  rw [countOf, inOrder_cons, List.length_append, ← countOf]

theorem countOf_mono {pick : Event → Option (Nat × UInt64)} {earlier history : List Event} (h : earlier <:+ history) :
    countOf pick earlier ≤ countOf pick history :=
  ((List.reverse_prefix.mpr h).sublist.filterMap pick).length_le

theorem outstanding_set {s s' : Contenders} {who : Nat} {worker next : Worker} (hworker : s.workers[who]? = some worker)
    (hworkers : s'.workers = s.workers.set who next) :
    s'.outstanding + (worker.phase != .idle).toNat = s.outstanding + (next.phase != .idle).toNat := by
  obtain ⟨hlt, rfl⟩ := List.getElem?_eq_some_iff.mp hworker
  have hle := List.boole_getElem_le_countP (p := fun worker => worker.phase != .idle) hlt
  rw [outstanding, outstanding, hworkers, List.countP_set hlt]
  cases hbusy : s.workers[who].phase != .idle <;> cases next.phase != .idle <;>
    simp only [hbusy, if_true, Bool.false_eq_true, if_false, Bool.toNat_true, Bool.toNat_false] at hle ⊢ <;> omega

theorem Move.history_suffix {s s' : Contenders} {who : Nat} (hmove : Move s who s') : s.history <:+ s'.history := by
  cases hmove <;> first | exact List.suffix_rfl | exact List.suffix_cons _ _

theorem history_run_suffix (schedule : List Nat) (s : Contenders) : s.history <:+ (s.run schedule).history :=
  run_always (P := fun s' => s.history <:+ s'.history) (fun _ _ _ hmove h => h.trans hmove.history_suffix) schedule s
    List.suffix_rfl

/-! ### What is counted -/

/-- The tickets and the counter as the history has them. -/
structure Counted (s : Contenders) : Prop where
  /-- Every ticket that was taken was given up or is out. -/
  arrived : countOf Event.took? s.history = countOf Event.left? s.history + s.outstanding
  /-- The first ticket is served from the start on, and the next one after each that is given up. -/
  serving : s.lock.nowServing = UInt64.ofNat (countOf Event.left? s.history) + 1

theorem counted_start (value : UInt64) (rounds : List Nat) : Counted (start value rounds) := by
  refine ⟨?_, rfl⟩
  have hnobody : (start value rounds).outstanding = 0 := by
    rw [outstanding, List.countP_eq_zero]
    intro worker hmem
    obtain ⟨n, -, rfl⟩ := List.mem_map.mp hmem
    simp
  rw [hnobody]
  rfl

namespace Counted

variable {s s' : Contenders} {who : Nat} {worker next : Worker} (h : Counted s)

include h

theorem proceed (hworker : s.workers[who]? = some worker) (hworkers : s'.workers = s.workers.set who next)
    (hbusy : worker.phase ≠ .idle) (hnext : next.phase ≠ .idle)
    (htook : countOf Event.took? s'.history = countOf Event.took? s.history)
    (hleft : countOf Event.left? s'.history = countOf Event.left? s.history)
    (hserving : s'.lock.nowServing = s.lock.nowServing) : Counted s' := by
  have hout := outstanding_set hworker hworkers
  rw [bne_iff_ne.mpr hbusy, bne_iff_ne.mpr hnext, Nat.add_right_cancel_iff] at hout
  exact ⟨by rw [htook, hleft, hout, h.arrived], by rw [hserving, hleft, h.serving]⟩

/-- **Every move is counted.** -/
theorem move (hmove : Move s who s') : Counted s' := by
  cases hmove with
  | stay => exact h
  | @take worker hworker hphase _ =>
    set s' : Contenders := { s.enter who worker (.waiting s.lock.nextTicket) with
      lock := s.lock.take.2
      history := .took who s.lock.nextTicket :: s.history }
    have hout : s'.outstanding + 0 = s.outstanding + 1 := by
      have hset := @outstanding_set s s' who _ _ hworker rfl
      rwa [hphase] at hset
    have htook : countOf Event.took? s'.history = countOf Event.took? s.history + 1 := countOf_cons ..
    have hleft : countOf Event.left? s'.history = countOf Event.left? s.history := countOf_cons ..
    refine ⟨?_, by rw [hleft]; exact h.serving⟩
    rw [htook, hleft, h.arrived]
    omega
  | enter hworker hphase _ =>
    exact h.proceed hworker rfl (by rw [hphase]; nofun) nofun (countOf_cons ..) (countOf_cons ..) rfl
  | load hworker hphase => exact h.proceed hworker rfl (by rw [hphase]; nofun) nofun rfl rfl rfl
  | store hworker hphase => exact h.proceed hworker rfl (by rw [hphase]; nofun) nofun rfl rfl rfl
  | @leave worker ticket hworker hphase =>
    set s' : Contenders := { s.enter who ⟨.idle, worker.rounds - 1⟩ .idle with
      lock := s.lock.release
      history := .left who ticket :: s.history }
    have hout : s'.outstanding + 1 = s.outstanding + 0 := by
      have hset := @outstanding_set s s' who _ _ hworker rfl
      rwa [hphase] at hset
    have htook : countOf Event.took? s'.history = countOf Event.took? s.history := countOf_cons ..
    have hleft : countOf Event.left? s'.history = countOf Event.left? s.history + 1 := countOf_cons ..
    refine ⟨?_, ?_⟩
    · rw [htook, hleft, h.arrived]
      omega
    · have hserving : s'.lock.nowServing = s.lock.nowServing + 1 := rfl
      rw [hserving, hleft, h.serving, UInt64.ofNat_add]
      rfl

/-- **The lock says how many have given it up**, while the counter has not come around. -/
theorem releases (hfew : countOf Event.took? s.history < 2 ^ 64 - 1) :
    countOf Event.left? s.history < 2 ^ 64 - 1 ∧
      s.lock.releases = .ok (UInt64.ofNat (countOf Event.left? s.history)) := by
  have hleft : countOf Event.left? s.history < 2 ^ 64 - 1 :=
    Nat.lt_of_le_of_lt (h.arrived ▸ Nat.le_add_right _ _) hfew
  have hword : (UInt64.ofNat (countOf Event.left? s.history)).toNat = countOf Event.left? s.history :=
    UInt64.toNat_ofNat_of_lt' (Nat.lt_of_lt_of_le hleft (Nat.sub_le _ _))
  have hne : s.lock.nowServing ≠ 0 := by
    rw [h.serving, Ne, ← UInt64.toNat_inj, UInt64.toNat_add, hword, UInt64.toNat_one, UInt64.toNat_zero]
    omega
  exact ⟨hleft, by rw [TicketLock.releases, if_neg hne, h.serving, UInt64.add_sub_cancel]⟩

theorem releases_of_entered (hfew : countOf Event.took? s.history < 2 ^ 64 - 1) {ticket : UInt64}
    (hstep : (s.step who).history = .entered who ticket :: s.history) :
    (s.step who).lock.releases = s.lock.releases := by
  have hcount (pick : Event → Option (Nat × UInt64)) :
      countOf pick (s.step who).history = countOf pick s.history + (pick (.entered who ticket)).toList.length :=
    hstep ▸ countOf_cons pick _ s.history
  have htook : countOf Event.took? (s.step who).history = countOf Event.took? s.history := hcount _
  have hleft : countOf Event.left? (s.step who).history = countOf Event.left? s.history := hcount _
  rw [((h.move (s.step_move who)).releases (htook ▸ hfew)).2, (h.releases hfew).2, hleft]

theorem releases_of_left (hfew : countOf Event.took? s.history < 2 ^ 64 - 1) {ticket : UInt64}
    (hstep : (s.step who).history = .left who ticket :: s.history) :
    (s.step who).lock.releases = .ok (UInt64.ofNat (countOf Event.left? s.history + 1)) := by
  have hcount (pick : Event → Option (Nat × UInt64)) :
      countOf pick (s.step who).history = countOf pick s.history + (pick (.left who ticket)).toList.length :=
    hstep ▸ countOf_cons pick _ s.history
  have htook : countOf Event.took? (s.step who).history = countOf Event.took? s.history := hcount _
  have hleft : countOf Event.left? (s.step who).history = countOf Event.left? s.history + 1 := hcount _
  rw [((h.move (s.step_move who)).releases (htook ▸ hfew)).2, hleft]

end Counted

theorem counted_run (value : UInt64) (rounds schedule : List Nat) : Counted ((start value rounds).run schedule) :=
  run_always (fun _ _ _ hmove h => h.move hmove) schedule _ (counted_start value rounds)

/-- Fewer tickets taken than there are never have too many out. -/
theorem outstanding_run_lt_of_took {value : UInt64} {rounds schedule : List Nat}
    (hfew : countOf Event.took? ((start value rounds).run schedule).history < 2 ^ 64) {early : List Nat}
    (hearly : early <+: schedule) : ((start value rounds).run early).outstanding < 2 ^ 64 := by
  obtain ⟨rest, rfl⟩ := hearly
  have hgrown : countOf Event.took? ((start value rounds).run early).history ≤
      countOf Event.took? ((start value rounds).run (early ++ rest)).history := by
    rw [run, run, List.foldl_append, ← run]
    exact countOf_mono (history_run_suffix rest _)
  have harrived := (counted_run value rounds early).arrived
  omega

/-- Whoever is inside was let in, and has not given the lock up. -/
theorem Orderly.countOf_entered {s : Contenders} (h : Orderly s) {who : Nat} (hin : (s.phaseOf who).inside = true) :
    countOf Event.entered? s.history = countOf Event.left? s.history + 1 := by
  obtain ⟨ticket, hticket⟩ := Phase.ticket?_of_inside hin
  have hgranted := congrArg List.length (h.held who ticket hin hticket)
  rwa [List.length_append] at hgranted

/-- **The lock counts who has given it up, and not who holds it.** While fewer
tickets were taken than the counter has values, the lock's own count is the number
of those who have given it up, in every state that a schedule leads to. Whoever is
inside was granted the lock and is not counted: with nobody inside the count is that
of all grants, and with somebody inside one less. A step that grants the lock leaves
the count as it is; one that gives it up adds one. -/
theorem releases_eq_left (value : UInt64) (rounds schedule : List Nat)
    (hfew : countOf Event.took? ((start value rounds).run schedule).history < 2 ^ 64 - 1) :
    let s := (start value rounds).run schedule
    let granted := countOf Event.entered? s.history
    let left := countOf Event.left? s.history
    s.lock.releases = .ok (UInt64.ofNat left) ∧ left < 2 ^ 64 - 1 ∧
      (∀ who, (s.phaseOf who).inside = true → granted = left + 1) ∧
      ((∀ who, (s.phaseOf who).inside = false) → granted = left) ∧
      (s.lock.releases = .ok (UInt64.ofNat granted) ↔ ∀ who, (s.phaseOf who).inside = false) ∧
      ∀ who ticket,
        ((s.step who).history = .entered who ticket :: s.history → (s.step who).lock.releases = s.lock.releases) ∧
        ((s.step who).history = .left who ticket :: s.history →
          (s.step who).lock.releases = .ok (UInt64.ofNat (left + 1))) := by
  intro s granted left
  have hcounted : Counted s := counted_run value rounds schedule
  have horderly : Orderly s :=
    run_keeps (fun _ _ _ hout hmove h => h.move hout hmove) schedule _ (orderly_start value rounds)
      fun early hearly => outstanding_run_lt_of_took (Nat.lt_of_lt_of_le hfew (Nat.sub_le _ _)) hearly
  obtain ⟨hleft, hreleases⟩ := hcounted.releases hfew
  have hnobody : (∀ who, (s.phaseOf who).inside = false) → granted = left := fun hfree =>
    congrArg List.length (horderly.free hfree)
  refine ⟨hreleases, hleft, fun who hin => horderly.countOf_entered hin, hnobody, ⟨fun hall who => ?_, fun hfree => ?_⟩,
    fun who ticket => ⟨hcounted.releases_of_entered hfew, hcounted.releases_of_left hfew⟩⟩
  · by_contra hin
    have hone : granted = left + 1 := horderly.countOf_entered (by simpa using hin)
    rw [hreleases, hone, UInt64.ofNat_add] at hall
    have hsame := Except.ok.inj hall
    grind
  · rw [hnobody hfree]
    exact hreleases

/-- The second of two contenders holds the lock: it was granted twice, and counts one. -/
theorem releases_eq_left_held :
    let s := (start 7 [1, 1]).run [0, 1, 0, 0, 0, 0, 1]
    countOf Event.took? s.history < 2 ^ 64 - 1 ∧ (s.phaseOf 1).inside = true ∧
      s.lock.releases = .ok 1 ∧ countOf Event.entered? s.history = 1 + 1 := by
  intro s
  have hfew : countOf Event.took? s.history < 2 ^ 64 - 1 := by decide
  have hin : (s.phaseOf 1).inside = true := by decide
  obtain ⟨hreleases, -, hheld, -⟩ := releases_eq_left 7 [1, 1] [0, 1, 0, 0, 0, 0, 1] hfew
  exact ⟨hfew, hin, hreleases, hheld 1 hin⟩

/-- The count is not that of the grants: the first contender is let in, and none is
counted. -/
theorem releases_ne_granted : ¬ ∀ (value : UInt64) (rounds schedule : List Nat),
    countOf Event.took? ((start value rounds).run schedule).history < 2 ^ 64 - 1 →
      ((start value rounds).run schedule).lock.releases =
        .ok (UInt64.ofNat (countOf Event.entered? ((start value rounds).run schedule).history)) := by
  intro hall
  have hone := hall 7 [1] [0, 0] (by decide)
  have hnone : ((start 7 [1]).run [0, 0]).lock.releases = .ok 0 := rfl
  rw [hnone] at hone
  exact absurd (Except.ok.inj hone) (by decide)

end Contenders
end TicketLock
end SyscallGate
