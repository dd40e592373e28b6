/-
# Contenders stand in line

Whoever takes a ticket goes to the end of a line, and whoever gives the lock up
leaves its front. The line is read off the history (`line`), and the counters of
the lock agree with it: the tickets in it are those from the one being served up
to the next one to be given, one each, around the end of the counter if need be
(`Numbered`). As long as fewer tickets than the counter has values are out, only
the first in line is served, so only the first can have been let in.

Key definitions: `Contenders.phaseOf`, `Contenders.Move`, `Contenders.line`,
`Contenders.outstanding`, `Contenders.InLine`.
Key theorems: `Contenders.step_move`, `Contenders.InLine.move`,
`Contenders.InLine.length_line_le`, `Contenders.run_keeps`, `Contenders.run_always`.
-/
import Mathlib.Algebra.Ring.Nat
import Mathlib.Data.List.Perm.Subperm
import SyscallGate.TicketLock.Contenders

namespace SyscallGate
namespace TicketLock
namespace Contenders

/-! ### Who stands where -/

/-- The ticket that a contender holds. -/
def Phase.ticket? : Phase → Option UInt64
  | .idle => none
  | .waiting ticket | .holding ticket | .loaded ticket _ | .stored ticket => some ticket

/-- Where a contender stands; nobody is there beyond the last one. -/
def phaseOf (s : Contenders) (who : Nat) : Phase :=
  match s.workers[who]? with
  | some worker => worker.phase
  | none => .idle

theorem phaseOf_eq {s : Contenders} {who : Nat} {worker : Worker} (h : s.workers[who]? = some worker) :
    s.phaseOf who = worker.phase := by
  rw [phaseOf, h]

theorem lt_length_of_ticket? {s : Contenders} {who : Nat} {ticket : UInt64}
    (h : (s.phaseOf who).ticket? = some ticket) : who < s.workers.length := by
  by_contra hlt
  rw [phaseOf, List.getElem?_eq_none (Nat.le_of_not_lt hlt)] at h
  simp [Phase.ticket?] at h

theorem phaseOf_set {s s' : Contenders} {who : Nat} {worker next : Worker}
    (h : s.workers[who]? = some worker) (hs : s'.workers = s.workers.set who next) (w : Nat) :
    s'.phaseOf w = if w = who then next.phase else s.phaseOf w := by
  have hlt : who < s.workers.length := (List.getElem?_eq_some_iff.mp h).1
  by_cases hw : w = who
  · subst hw
    rw [if_pos rfl, phaseOf, hs, List.getElem?_set_self hlt]
  · rw [if_neg hw, phaseOf, phaseOf, hs, List.getElem?_set_ne (Ne.symm hw)]

/-- What a step of a contender can be. -/
inductive Move (s : Contenders) (who : Nat) : Contenders → Prop
  /-- It has finished, or another ticket is served. -/
  | stay : Move s who s
  | take {worker : Worker} : s.workers[who]? = some worker → worker.phase = .idle →
      worker.rounds ≠ 0 →
      Move s who { s.enter who worker (.waiting s.lock.nextTicket) with
        lock := s.lock.take.2
        history := .took who s.lock.nextTicket :: s.history }
  | enter {worker : Worker} {ticket : UInt64} : s.workers[who]? = some worker →
      worker.phase = .waiting ticket → s.lock.nowServing = ticket →
      Move s who { s.enter who worker (.holding ticket) with
        history := .entered who ticket :: s.history }
  | load {worker : Worker} {ticket : UInt64} : s.workers[who]? = some worker →
      worker.phase = .holding ticket → Move s who (s.enter who worker (.loaded ticket s.lock.value))
  | store {worker : Worker} {ticket word : UInt64} : s.workers[who]? = some worker →
      worker.phase = .loaded ticket word →
      Move s who { s.enter who worker (.stored ticket) with lock := { s.lock with value := word + 1 } }
  | leave {worker : Worker} {ticket : UInt64} : s.workers[who]? = some worker →
      worker.phase = .stored ticket →
      Move s who { s.enter who ⟨.idle, worker.rounds - 1⟩ .idle with
        lock := s.lock.release
        history := .left who ticket :: s.history }

/-- Every step is one of these. -/
theorem step_move (s : Contenders) (who : Nat) : Move s who (s.step who) := by
  rw [step]
  cases hworker : s.workers[who]? with
  | none => exact .stay
  | some worker =>
    cases hphase : worker.phase with
    | idle =>
      simp only [advance, hphase]
      by_cases hrounds : worker.rounds = 0
      · rw [if_pos hrounds]
        exact .stay
      · rw [if_neg hrounds]
        exact .take hworker hphase hrounds
    | waiting ticket =>
      simp only [advance, hphase]
      by_cases hserving : s.lock.isServing ticket = true
      · rw [if_pos hserving]
        exact .enter hworker hphase (by simpa [isServing] using hserving)
      · rw [if_neg hserving]
        exact .stay
    | holding ticket =>
      simp only [advance, hphase]
      exact .load hworker hphase
    | loaded ticket word =>
      simp only [advance, hphase]
      exact .store hworker hphase
    | stored ticket =>
      simp only [advance, hphase]
      exact .leave hworker hphase

/-! ### The line -/

/-- The contenders with a ticket after a history, newest event first: who took
the oldest ticket is in front. -/
def line : List Event → List (Nat × UInt64)
  | [] => []
  | .took who ticket :: earlier => line earlier ++ [(who, ticket)]
  | .entered _ _ :: earlier => line earlier
  | .left _ _ :: earlier => (line earlier).tail

/-- The tickets in line are consecutive from `first` on, modulo `2 ^ 64`. -/
def Numbered : UInt64 → List (Nat × UInt64) → Prop
  | _, [] => True
  | first, (_, ticket) :: rest => ticket = first ∧ Numbered (first + 1) rest

theorem add_ofNat_succ (first : UInt64) (n : Nat) :
    first + UInt64.ofNat (n + 1) = first + 1 + UInt64.ofNat n := by
  rw [UInt64.ofNat_add]
  grind

theorem Numbered.append (who : Nat) : ∀ {entries : List (Nat × UInt64)} {first : UInt64},
    Numbered first entries →
    Numbered first (entries ++ [(who, first + UInt64.ofNat entries.length)])
  | [], _, _ => ⟨by simp, trivial⟩
  | (_, _) :: rest, first, ⟨hticket, hrest⟩ => by
    have ih := hrest.append who
    rw [← add_ofNat_succ] at ih
    exact ⟨hticket, ih⟩

theorem Numbered.exists_place {who : Nat} {ticket : UInt64} : ∀ {entries : List (Nat × UInt64)}
    {first : UInt64}, Numbered first entries → (who, ticket) ∈ entries →
    ∃ k < entries.length, ticket = first + UInt64.ofNat k
  | (w, t) :: rest, first, ⟨hticket, hrest⟩, hmem => by
    rcases List.mem_cons.mp hmem with heq | hmem
    · have htop : ticket = t := congrArg Prod.snd heq
      exact ⟨0, by simp, by simp [htop, hticket]⟩
    · obtain ⟨k, hk, rfl⟩ := hrest.exists_place hmem
      exact ⟨k + 1, by simpa using hk, (add_ofNat_succ first k).symm⟩

/-- Only the first in line has the first ticket, if the numbers do not go around. -/
theorem Numbered.eq_cons {who : Nat} {first : UInt64} {entries : List (Nat × UInt64)}
    (h : Numbered first entries) (hlen : entries.length < 2 ^ 64) (hmem : (who, first) ∈ entries) :
    ∃ rest, entries = (who, first) :: rest := by
  match entries, h with
  | (w, t) :: rest, ⟨hticket, hrest⟩ =>
    subst hticket
    rcases List.mem_cons.mp hmem with heq | hmem
    · exact ⟨rest, by rw [heq]⟩
    · obtain ⟨k, hk, hplace⟩ := hrest.exists_place hmem
      have hzero : UInt64.ofNat (k + 1) = 0 := by
        rw [← add_ofNat_succ] at hplace
        grind
      have hmod := congrArg UInt64.toNat hzero
      simp only [UInt64.toNat_ofNat', UInt64.toNat_zero, List.length_cons] at hmod hlen
      omega

/-- The line as the lock and the contenders have it. -/
structure InLine (s : Contenders) : Prop where
  /-- The tickets out are those from the one being served on. -/
  numbered : Numbered s.lock.nowServing (line s.history)
  next : s.lock.nextTicket = s.lock.nowServing + UInt64.ofNat (line s.history).length
  /-- Nobody stands in it twice. -/
  nodup : ((line s.history).map Prod.fst).Nodup
  mem_iff : ∀ who ticket, (who, ticket) ∈ line s.history ↔ (s.phaseOf who).ticket? = some ticket
  /-- Only the first is let in. -/
  first : ∀ who ticket, (s.phaseOf who).inside = true → (s.phaseOf who).ticket? = some ticket →
    ∃ rest, line s.history = (who, ticket) :: rest

theorem Phase.ticket?_of_inside {phase : Phase} (h : phase.inside = true) :
    ∃ ticket, phase.ticket? = some ticket := by
  cases phase <;> simp_all [Phase.inside, Phase.ticket?]

theorem inLine_start (value : UInt64) (rounds : List Nat) : InLine (start value rounds) := by
  have hidle : ∀ who, (start value rounds).phaseOf who = .idle := fun who => by
    rw [phaseOf, start, List.getElem?_map]
    cases rounds[who]? <;> rfl
  refine ⟨trivial, by simp [start, TicketLock.new, line], List.nodup_nil, fun who ticket => ?_,
    fun who ticket h => ?_⟩
  · rw [hidle]
    simp [start, line, Phase.ticket?]
  · simp [hidle, Phase.inside] at h

namespace InLine

variable {s : Contenders} (h : InLine s) {who : Nat} {worker : Worker}

include h

theorem eq_of_inside {i j : Nat} (hi : (s.phaseOf i).inside = true) (hj : (s.phaseOf j).inside = true) :
    i = j := by
  obtain ⟨ticket, hticket⟩ := Phase.ticket?_of_inside hi
  obtain ⟨ticket', hticket'⟩ := Phase.ticket?_of_inside hj
  obtain ⟨rest, hline⟩ := h.first i ticket hi hticket
  obtain ⟨rest', hline'⟩ := h.first j ticket' hj hticket'
  rw [hline] at hline'
  exact congrArg Prod.fst (List.cons.inj hline').1

theorem first_of_inside {ticket : UInt64} (hworker : s.workers[who]? = some worker)
    (hin : worker.phase.inside = true) (hticket : worker.phase.ticket? = some ticket) :
    ∃ rest, line s.history = (who, ticket) :: rest := by
  rw [← phaseOf_eq hworker] at hin hticket
  exact h.first who ticket hin hticket

/-- A contender without a ticket goes to the end of the line. -/
theorem take {s' : Contenders} {next : Worker} (hworker : s.workers[who]? = some worker)
    (hphase : worker.phase = .idle) (hnext : next.phase = .waiting s.lock.nextTicket)
    (hworkers : s'.workers = s.workers.set who next) (hlock : s'.lock = s.lock.take.2)
    (hhistory : s'.history = .took who s.lock.nextTicket :: s.history) : InLine s' := by
  have hphases := phaseOf_set hworker hworkers
  have hline : line s'.history = line s.history ++ [(who, s.lock.nextTicket)] := by rw [hhistory, line]
  have hout : ∀ ticket, (who, ticket) ∉ line s.history := fun ticket hmem => by
    have := (h.mem_iff who ticket).mp hmem
    rw [phaseOf_eq hworker, hphase] at this
    simp [Phase.ticket?] at this
  refine ⟨?_, ?_, ?_, fun w ticket => ?_, fun w ticket hin hticket => ?_⟩
  · rw [hline, hlock, h.next]
    exact h.numbered.append who
  · rw [hline, hlock, List.length_append, List.length_singleton, add_ofNat_succ]
    simp only [TicketLock.take, h.next]
    grind
  · rw [hline, List.map_append, List.map_cons, List.map_nil]
    refine List.nodup_append.mpr ⟨h.nodup, List.pairwise_singleton _ _, ?_⟩
    rintro a ha b hb rfl
    obtain ⟨⟨w, ticket⟩, hmem, hw⟩ := List.mem_map.mp ha
    simp only [List.mem_singleton] at hw hb
    exact hout ticket (by rwa [← hb, ← hw])
  · rw [hline, hphases, List.mem_append, List.mem_singleton, Prod.mk.injEq]
    by_cases hw : w = who
    · subst hw
      rw [if_pos rfl, hnext]
      simp only [hout, false_or, true_and, Phase.ticket?, Option.some.injEq]
      exact eq_comm
    · simp only [hw, false_and, or_false, if_false]
      exact h.mem_iff w ticket
  · rw [hphases] at hin hticket
    by_cases hw : w = who
    · simp [hw, hnext, Phase.inside] at hin
    · rw [if_neg hw] at hin hticket
      obtain ⟨rest, hrest⟩ := h.first w ticket hin hticket
      exact ⟨rest ++ [(who, s.lock.nextTicket)], by rw [hline, hrest, List.cons_append]⟩

/-- The first in line goes on with its ticket. -/
theorem proceed {s' : Contenders} {next : Worker} {ticket : UInt64} {rest : List (Nat × UInt64)}
    (hworker : s.workers[who]? = some worker) (hfirst : line s.history = (who, ticket) :: rest)
    (hticket : worker.phase.ticket? = some ticket) (hnext : next.phase.ticket? = some ticket)
    (hworkers : s'.workers = s.workers.set who next) (hline : line s'.history = line s.history)
    (hserving : s'.lock.nowServing = s.lock.nowServing)
    (htickets : s'.lock.nextTicket = s.lock.nextTicket) : InLine s' := by
  have hphases := phaseOf_set hworker hworkers
  refine ⟨?_, ?_, ?_, fun w t => ?_, fun w t hin ht => ?_⟩
  · rw [hserving, hline]
    exact h.numbered
  · rw [hserving, hline, htickets]
    exact h.next
  · rw [hline]
    exact h.nodup
  · rw [hline, h.mem_iff, hphases]
    by_cases hw : w = who
    · rw [if_pos hw, hw, phaseOf_eq hworker, hticket, hnext]
    · rw [if_neg hw]
  · rw [hphases] at hin ht
    rw [hline]
    by_cases hw : w = who
    · rw [if_pos hw, hnext] at ht
      exact ⟨rest, by rw [hfirst, hw, Option.some.inj ht]⟩
    · rw [if_neg hw] at hin ht
      exact h.first w t hin ht

/-- The first in line leaves it. -/
theorem leave {s' : Contenders} {next : Worker} {ticket : UInt64}
    (hworker : s.workers[who]? = some worker) (hphase : worker.phase = .stored ticket)
    (hnext : next.phase = .idle) (hworkers : s'.workers = s.workers.set who next)
    (hlock : s'.lock = s.lock.release) (hhistory : s'.history = .left who ticket :: s.history) :
    InLine s' := by
  have hphases := phaseOf_set hworker hworkers
  have hwho : s.phaseOf who = .stored ticket := (phaseOf_eq hworker).trans hphase
  obtain ⟨rest, hfirst⟩ := h.first_of_inside hworker (by rw [hphase]; rfl) (by rw [hphase]; rfl)
  have hline : line s'.history = rest := by rw [hhistory, line, hfirst, List.tail_cons]
  have hnumbered := h.numbered
  have htickets := h.next
  have hnodup := h.nodup
  rw [hfirst] at hnumbered htickets hnodup
  rw [List.map_cons, List.nodup_cons] at hnodup
  refine ⟨?_, ?_, ?_, fun w t => ?_, fun w t hin ht => ?_⟩
  · rw [hline, hlock]
    exact hnumbered.2
  · rw [hline, hlock]
    exact htickets.trans (add_ofNat_succ _ _)
  · rw [hline]
    exact hnodup.2
  · rw [hline, hphases]
    by_cases hw : w = who
    · subst hw
      have hgone : (w, t) ∉ rest := fun hmem => hnodup.1 (List.mem_map.mpr ⟨_, hmem, rfl⟩)
      simp [hgone, hnext, Phase.ticket?]
    · rw [if_neg hw, ← h.mem_iff, hfirst, List.mem_cons]
      simp [hw]
  · -- whoever else is inside would have been the first in line
    rw [hphases] at hin
    by_cases hw : w = who
    · simp [hw, hnext, Phase.inside] at hin
    · rw [if_neg hw] at hin
      exact absurd (h.eq_of_inside hin (by rw [hwho]; rfl)) hw

end InLine

/-! ### How many are in line -/

/-- The tickets that are out: the contenders that are not idle. -/
def outstanding (s : Contenders) : Nat := s.workers.countP fun worker => worker.phase != .idle

theorem outstanding_le (s : Contenders) : s.outstanding ≤ s.workers.length := List.countP_le_length

theorem outstanding_eq (s : Contenders) :
    s.outstanding = ((List.range s.workers.length).filter fun who => s.phaseOf who != .idle).length := by
  have hphases : s.workers.map Worker.phase = (List.range s.workers.length).map s.phaseOf := by
    refine List.ext_getElem (by simp) fun who h _ => ?_
    have hlt : who < s.workers.length := by simpa using h
    rw [List.getElem_map, List.getElem_map, List.getElem_range,
      phaseOf_eq (List.getElem?_eq_getElem hlt)]
  have hcount : s.outstanding = (s.workers.map Worker.phase).countP (· != .idle) := by
    rw [List.countP_map]
    rfl
  rw [hcount, hphases, List.countP_map, List.countP_eq_length_filter]
  rfl

theorem InLine.length_line_le {s : Contenders} (h : InLine s) : (line s.history).length ≤ s.outstanding := by
  rw [outstanding_eq, ← List.length_map (f := Prod.fst)]
  refine (h.nodup.subperm fun who hmem => ?_).length_le
  obtain ⟨⟨w, ticket⟩, hline, rfl⟩ := List.mem_map.mp hmem
  have hticket := (h.mem_iff w ticket).mp hline
  have hbusy : s.phaseOf w ≠ .idle := fun hidle => by simp [hidle, Phase.ticket?] at hticket
  exact List.mem_filter.mpr ⟨List.mem_range.mpr (lt_length_of_ticket? hticket), by simpa using hbusy⟩

/-- Only the first in line finds its ticket served. -/
theorem InLine.first_of_served {s : Contenders} {who : Nat} {worker : Worker} {ticket : UInt64}
    (h : InLine s) (hout : s.outstanding < 2 ^ 64) (hworker : s.workers[who]? = some worker)
    (hphase : worker.phase = .waiting ticket) (hserving : s.lock.nowServing = ticket) :
    ∃ rest, line s.history = (who, ticket) :: rest := by
  have hlen : (line s.history).length < 2 ^ 64 := Nat.lt_of_le_of_lt h.length_line_le hout
  have hmem : (who, ticket) ∈ line s.history :=
    (h.mem_iff who ticket).mpr (by rw [phaseOf_eq hworker, hphase]; rfl)
  exact (hserving ▸ h.numbered).eq_cons hlen hmem

/-- **Every step keeps the line**, while the tickets out are fewer than there are. -/
theorem InLine.move {s s' : Contenders} {who : Nat} (h : InLine s) (hout : s.outstanding < 2 ^ 64)
    (hmove : Move s who s') : InLine s' := by
  cases hmove with
  | stay => exact h
  | take hworker hphase _ => exact h.take hworker hphase rfl rfl rfl rfl
  | @enter worker ticket hworker hphase hserving =>
    obtain ⟨rest, hfirst⟩ := h.first_of_served hout hworker hphase hserving
    exact h.proceed hworker hfirst (by rw [hphase]; rfl) rfl rfl rfl rfl rfl
  | @load worker ticket hworker hphase =>
    obtain ⟨rest, hfirst⟩ := h.first_of_inside hworker (by rw [hphase]; rfl) (by rw [hphase]; rfl)
    exact h.proceed hworker hfirst (by rw [hphase]; rfl) rfl rfl rfl rfl rfl
  | @store worker ticket word hworker hphase =>
    obtain ⟨rest, hfirst⟩ := h.first_of_inside hworker (by rw [hphase]; rfl) (by rw [hphase]; rfl)
    exact h.proceed hworker hfirst (by rw [hphase]; rfl) rfl rfl rfl rfl rfl
  | leave hworker hphase => exact h.leave hworker hphase rfl rfl rfl rfl

/-! ### Runs -/

/-- What every move keeps, a whole schedule keeps. -/
theorem run_keeps {P : Contenders → Prop}
    (hmove : ∀ s s' who, s.outstanding < 2 ^ 64 → Move s who s' → P s → P s') :
    ∀ (schedule : List Nat) (s : Contenders), P s →
      (∀ early, early <+: schedule → (s.run early).outstanding < 2 ^ 64) → P (s.run schedule)
  | [], _, h, _ => h
  | who :: schedule, s, h, hout => by
    have hnow : s.outstanding < 2 ^ 64 := hout [] List.nil_prefix
    exact run_keeps hmove schedule (s.step who) (hmove s _ who hnow (s.step_move who) h)
      fun early hearly => hout (who :: early) ((List.prefix_cons_inj who).mpr hearly)

theorem run_always {P : Contenders → Prop} (hmove : ∀ s s' who, Move s who s' → P s → P s') :
    ∀ (schedule : List Nat) (s : Contenders), P s → P (s.run schedule)
  | [], _, h => h
  | who :: schedule, s, h => run_always hmove schedule (s.step who) (hmove s _ who (s.step_move who) h)

theorem Move.length_workers {s s' : Contenders} {who : Nat} (hmove : Move s who s') :
    s'.workers.length = s.workers.length := by
  cases hmove <;> simp [Contenders.enter]

theorem length_workers_run (schedule : List Nat) (s : Contenders) :
    (s.run schedule).workers.length = s.workers.length :=
  run_always (P := fun s' => s'.workers.length = s.workers.length)
    (fun _ _ _ hmove h => hmove.length_workers.trans h) schedule s rfl

/-- Fewer contenders than tickets never have too many out. -/
theorem outstanding_run_lt {rounds : List Nat} (h : rounds.length < 2 ^ 64) (value : UInt64)
    (schedule : List Nat) : ((start value rounds).run schedule).outstanding < 2 ^ 64 := by
  have hlength := length_workers_run schedule (start value rounds)
  have hstart : (start value rounds).workers.length = rounds.length := List.length_map _
  have hle := ((start value rounds).run schedule).outstanding_le
  omega

end Contenders
end TicketLock
end SyscallGate
