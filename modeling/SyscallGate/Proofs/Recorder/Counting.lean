/-
# How many calls a run makes, and how deep they nest

Each instruction that leaves takes the next handler off the script, and the calls
that this handler makes leave in their turn. So a run is over when as many
instructions have left as there are calls from outside and calls of the handlers
taken until then, and not before: until then more calls are asked for than have
left (`lt_demand`). What calls ask for that are made one after another adds up
(`demand_add`), and a call asks for what its handler does (`demand_succ`); so the
trees of `Derives` are counted node by node (`Derives.tally`). A call that a
handler makes has one handler less to nest with, so no more calls are under way
at a time than there are handlers, and one (`Derives.nests`).

Key definitions: `Recorder.ownCalls`, `Recorder.demand`, `Recorder.Tally`,
`Recorder.underWay`, `Recorder.Nests`.
Key theorems: `Recorder.isLeast_add`, `Recorder.isLeast_succ`,
`Recorder.Derives.tally`, `Recorder.Derives.nests`,
`Recorder.run_forwards_isLeast`.
-/
import Mathlib.Algebra.Ring.Int.Defs
import Mathlib.Algebra.Ring.Nat
import Mathlib.Order.Bounds.Basic
import Mathlib.Order.Nat
import SyscallGate.Proofs.Recorder.Grammar
import SyscallGate.Proofs.Recorder.Isolation

namespace SyscallGate
namespace Recorder

/-! ### What is asked for -/

/-- Whether an action is a call, of other registers or of those being served. -/
def Action.isCall : Action → Bool
  | call _ | again => true
  | register _ | selector _ => false

/-- The number of calls that a handler makes. -/
def ownCalls (handler : List Action) : Nat := handler.countP Action.isCall

/-- The calls there are when `n` handlers were taken off a script: so many, and
those that the handlers make. -/
def demand (calls : Nat) (script : List (List Action)) (n : Nat) : Nat :=
  calls + ((script.take n).map ownCalls).sum

theorem demand_add (calls more : Nat) (script : List (List Action)) (m n : Nat) :
    demand (calls + more) script (m + n) = demand calls script m + demand more (script.drop m) n := by
  simp only [demand, List.take_add, List.map_append, List.sum_append]
  omega

/-- A call asks for itself, and for the calls of the handler that it takes. -/
theorem demand_succ (script : List (List Action)) (n : Nat) :
    demand 1 script (n + 1) = demand (ownCalls (script.headD [])) script.tail n + 1 := by
  cases script with
  | nil => simp [demand, ownCalls]
  | cons handler script =>
    simp only [demand, List.take_succ_cons, List.map_cons, List.sum_cons, List.headD_cons, List.tail_cons]
    omega

theorem demand_mono (calls : Nat) (script : List (List Action)) {m n : Nat} (h : m ≤ n) :
    demand calls script m ≤ demand calls script n := by
  obtain ⟨k, rfl⟩ := Nat.exists_eq_add_of_le h
  rw [← Nat.add_zero calls, demand_add, Nat.add_zero]
  exact Nat.le_add_right _ _

/-- **Before the first number that is enough, more is asked for.** -/
theorem lt_demand {calls : Nat} {script : List (List Action)} {least : Nat}
    (h : IsLeast {n | n = demand calls script n} least) : ∀ n < least, n < demand calls script n := by
  have hother : ∀ n < least, n ≠ demand calls script n := fun n hn heq => Nat.not_le_of_lt hn (h.2 heq)
  intro n hn
  induction n with
  | zero => exact Nat.pos_of_ne_zero (hother 0 hn).symm
  | succ n ih =>
    have hbefore : n < demand calls script n := ih (Nat.lt_of_succ_lt hn)
    have hmono : demand calls script n ≤ demand calls script (n + 1) := demand_mono calls script (Nat.le_succ n)
    have hne : n + 1 ≠ demand calls script (n + 1) := hother (n + 1) hn
    omega

/-- **Calls that are made one after the other** are over when the later ones are. -/
theorem isLeast_add {calls more : Nat} {script : List (List Action)} {m n : Nat}
    (h : IsLeast {k | k = demand calls script k} m)
    (hmore : IsLeast {k | k = demand more (script.drop m) k} n) :
    IsLeast {k | k = demand (calls + more) script k} (m + n) := by
  have hm : m = demand calls script m := h.1
  have hn : n = demand more (script.drop m) n := hmore.1
  refine ⟨?_, fun k hk => ?_⟩
  · change m + n = _
    rw [demand_add, ← hm, ← hn]
  · have hk : k = demand (calls + more) script k := hk
    refine Nat.le_of_not_lt fun hlt => ?_
    rcases Nat.lt_or_ge k m with hfirst | hlater
    · -- the earlier calls are not over, and the later ones ask for no less
      have hasked : k < demand calls script k := lt_demand h k hfirst
      have hall : demand (calls + more) script k = demand calls script k + more := by
        simp only [demand]
        omega
      omega
    · obtain ⟨j, rfl⟩ := Nat.exists_eq_add_of_le hlater
      have hasked : j < demand more (script.drop m) j := lt_demand hmore j (by omega)
      rw [demand_add, ← hm] at hk
      omega

/-- **A call is over when the calls of its handler are.** -/
theorem isLeast_succ {script : List (List Action)} {n : Nat}
    (h : IsLeast {k | k = demand (ownCalls (script.headD [])) script.tail k} n) :
    IsLeast {k | k = demand 1 script k} (n + 1) := by
  have hn : n = demand (ownCalls (script.headD [])) script.tail n := h.1
  refine ⟨?_, fun k hk => ?_⟩
  · change n + 1 = _
    rw [demand_succ, ← hn]
  · have hk : k = demand 1 script k := hk
    cases k with
    | zero => simp [demand] at hk
    | succ k =>
      rw [demand_succ] at hk
      exact Nat.succ_le_succ (h.2 (Nat.succ.inj hk))

/-! ### What leaves -/

/-- The number of instructions that left. -/
def forwards (events : List Event) : Nat := events.countP Event.isSyscall + events.countP Event.isVmgexit

theorem forwards_append (events more : List Event) : forwards (events ++ more) = forwards events + forwards more := by
  simp only [forwards, List.countP_append]
  omega

/-- So many calls, with all that their handlers make, leave these events: as many
instructions left as were asked for, and each took a handler as long as there
was one. -/
structure Tally (calls : Nat) (s : Standing) (events : List Event) (s' : Standing) : Prop where
  least : IsLeast {n | n = demand calls s.script n} (forwards events)
  script : s'.script = s.script.drop (forwards events)

namespace Tally

theorem nothing (s : Standing) : Tally 0 s [] s := ⟨⟨rfl, fun _ _ => Nat.zero_le _⟩, rfl⟩

theorem selector {calls : Nat} {s s' : Standing} {events : List Event} {selector : UInt16}
    (h : Tally calls { s with selector } events s') : Tally calls s events s' := ⟨h.least, h.script⟩

theorem append {calls more : Nat} {s t s' : Standing} {events later : List Event} (h : Tally calls s events t)
    (hmore : Tally more t later s') : Tally (calls + more) s (events ++ later) s' where
  least := by
    rw [forwards_append]
    exact isLeast_add h.least (h.script ▸ hmore.least)
  script := by rw [hmore.script, h.script, List.drop_drop, forwards_append]

/-- A call leaves once, and takes the handler whose calls come next. -/
theorem departed {s s' : Standing} {served : List Event} (departure : List Event) (hdeparture : forwards departure = 1)
    (h : Tally (ownCalls s.handler) s.rest served s') : Tally 1 s (departure ++ served) s' where
  least := by
    rw [forwards_append, hdeparture, Nat.add_comm]
    exact isLeast_succ h.least
  script := by
    rw [h.script, forwards_append, hdeparture, ← List.drop_drop, List.drop_one]
    rfl

/-- A call that comes back is one more among those of its handler. -/
theorem followed {calls all : Nat} {s t s' : Standing} {inner later : List Event} {way : Route} {after : Registers}
    (h : Tally 1 s inner t) (hall : all = calls + 1) (hlater : Tally calls t later s') :
    Tally all s (inner ++ .returned way after :: later) s' := by
  rw [hall, Nat.add_comm]
  exact h.append ⟨hlater.least, hlater.script⟩

theorem length_script {calls : Nat} {s s' : Standing} {events : List Event} (h : Tally calls s events s') :
    s'.script.length ≤ s.script.length := by
  rw [h.script, List.length_drop]
  exact Nat.sub_le _ _

end Tally

mutual

/-- **A call is tallied as one.** -/
theorem Derives.tally {s s' : Standing} {regs after : Registers} {events : List Event} {way : Route} :
    Derives s regs events way after s' → Tally 1 s events s'
  | .direct _ hs => hs.tally.departed [_, _] rfl
  | .redirect _ hs => hs.tally.departed [_, _, _] rfl

theorem Served.tally {s s' : Standing} {regs after : Registers} {events : List Event} :
    Served s regs events after s' → Tally (ownCalls s.handler) s.rest events s'
  | .nobody => .nothing _
  | .handler hh => hh.tally

theorem Handled.tally {s s' : Standing} {h h' : Handling} {actions : List Action} {events : List Event} :
    Handled s h actions events h' s' → Tally (ownCalls actions) s events s'
  | .done => .nothing _
  | .register hh => hh.tally
  | .selector hh => hh.tally.selector
  | .call hd hh | .again hd hh => hd.tally.followed (List.countP_cons_of_pos rfl) hh.tally

end

/-! ### What is under way -/

/-- A call begins with its question, and is over when it comes back. -/
def Event.opens : Event → Int
  | classify _ _ => 1
  | returned _ _ | failed _ => -1
  | writeMsr _ _ | syscall _ | vmgexit _ => 0

/-- The number of calls under way after events: of those that began and did not
come back. A call from outside comes back with no event of its own. -/
def underWay (events : List Event) : Int := (events.map Event.opens).sum

theorem underWay_cons (event : Event) (events : List Event) :
    underWay (event :: events) = event.opens + underWay events := rfl

theorem underWay_append (events more : List Event) : underWay (events ++ more) = underWay events + underWay more := by
  rw [underWay, List.map_append, List.sum_append]
  rfl

/-- Events after which `net` more calls are under way, and in the middle of which
never more than `bound` of them are. -/
structure Nests (bound net : Int) (events : List Event) : Prop where
  net : underWay events = net
  atMost : ∀ before, before <+: events → underWay before ≤ bound

namespace Nests

variable {bound net more : Int} {events later : List Event}

theorem nothing (h : 0 ≤ bound) : Nests bound 0 [] where
  net := rfl
  atMost before hbefore := by
    rw [List.prefix_nil.mp hbefore]
    exact h

theorem mono {larger : Int} (h : Nests bound net events) (hle : bound ≤ larger) : Nests larger net events where
  net := h.net
  atMost before hbefore := Int.le_trans (h.atMost before hbefore) hle

theorem append (h : Nests bound net events) (hlater : Nests (bound - net) more later) :
    Nests bound (net + more) (events ++ later) where
  net := by rw [underWay_append, h.net, hlater.net]
  atMost := by
    rintro before ⟨after, hafter⟩
    rcases List.append_eq_append_iff.mp hafter with ⟨rest, rfl, -⟩ | ⟨rest, rfl, hrest⟩
    · exact h.atMost before (List.prefix_append _ _)
    · have hbound : underWay rest ≤ bound - net := hlater.atMost rest ⟨after, hrest.symm⟩
      rw [underWay_append, h.net]
      omega

theorem cons (event : Event) (h : Nests bound net events) (hbound : 0 ≤ bound + event.opens) :
    Nests (bound + event.opens) (event.opens + net) (event :: events) where
  net := by rw [underWay_cons, h.net]
  atMost before hbefore := by
    rcases List.prefix_cons_iff.mp hbefore with rfl | ⟨rest, rfl, hrest⟩
    · exact hbound
    · rw [underWay_cons, Int.add_comm]
      exact Int.add_le_add_right (h.atMost rest hrest) _

theorem bound_nonneg (h : Nests bound net events) : 0 ≤ bound := h.atMost [] List.nil_prefix

theorem net_le (h : Nests bound net events) : net ≤ bound := h.net ▸ h.atMost events (List.prefix_refl events)

theorem uncounted {event : Event} (hevent : event.opens = 0) (h : Nests bound net events) :
    Nests bound net (event :: events) := by
  have hall := h.cons event (by rw [hevent, Int.add_zero]; exact h.bound_nonneg)
  rw [hevent, Int.add_zero, Int.zero_add] at hall
  exact hall

theorem classified (selector : UInt16) (answer : CallerClass) (h : Nests bound 0 events) :
    Nests (bound + 1) 1 (.classify selector answer :: events) :=
  h.cons (.classify selector answer) (Int.le_add_one h.bound_nonneg)

theorem followed {way : Route} {after : Registers} (h : Nests bound 1 events) (hlater : Nests bound 0 later) :
    Nests bound 0 (events ++ .returned way after :: later) :=
  h.append (hlater.cons (.returned way after) (Int.sub_nonneg_of_le h.net_le))

end Nests

mutual

/-- **A call is under way until it comes back**, and each handler left lets calls
nest one deeper in it. -/
theorem Derives.nests {s s' : Standing} {regs after : Registers} {events : List Event} {way : Route} :
    Derives s regs events way after s' → Nests (s.script.length + 1) 1 events
  | .direct _ hs => (hs.nests.uncounted rfl).classified _ _
  | .redirect _ hs => ((hs.nests.uncounted rfl).uncounted rfl).classified _ _

theorem Served.nests {s s' : Standing} {regs after : Registers} {events : List Event} :
    Served s regs events after s' → Nests s.script.length 0 events
  | .nobody => .nothing (Int.le_refl 0)
  | .handler hh => hh.nests

theorem Handled.nests {s s' : Standing} {h h' : Handling} {actions : List Action} {events : List Event} :
    Handled s h actions events h' s' → Nests (s.script.length + 1) 0 events
  | .done => .nothing (by omega)
  | .register hh => hh.nests
  | .selector hh => hh.nests
  | .call hd hh | .again hd hh => by
    have hshorter := hd.tally.length_script
    exact hd.nests.followed (hh.nests.mono (by omega))

end

/-! ### Runs -/

variable (classifier : Classifier)

/-- Calls from outside are tallied together, and in each of them calls nest no
deeper than there are handlers. -/
theorem answers_tally : ∀ (calls : List Call) (r : Recorder), ∃ (as : List Answer) (s : Standing),
    (answers classifier calls).run r = (as.map .ok, r.advance s (as.flatMap (·.events))) ∧
      Transcript r.standing calls as ∧ Tally calls.length r.standing (as.flatMap (·.events)) s ∧
      ∀ answer ∈ as, Nests (r.script.length + 1) 1 answer.events
  | [], r => ⟨[], r.standing, rfl, .nil, .nothing _, nofun⟩
  | c :: calls, r => by
    obtain ⟨a, t, hd, hfirst⟩ := answer_derives classifier c r
    obtain ⟨as, s, hrest, htranscript, htally, hnests⟩ := answers_tally calls (r.advance t a.events)
    rw [advance_advance] at hrest
    have hshorter : t.script.length ≤ r.script.length := hd.tally.length_script
    refine ⟨a :: as, s, answers_cons_run classifier hfirst hrest, .cons hd htranscript, ?tally, ?nests⟩
    case tally =>
      rw [List.flatMap_cons, List.length_cons, Nat.add_comm]
      exact hd.tally.selector.append htally
    case nests =>
      refine List.forall_mem_cons.mpr ⟨hd.nests, fun answer hanswer => ?_⟩
      exact (hnests answer hanswer).mono (Int.add_le_add_right (Int.ofNat_le.mpr hshorter) 1)

/-- **Every run ends, with exactly the calls that were asked for.** It is a
transcript, so its calls nest as deep as they come to and no bound stops them. The
number of instructions that left is the least for which there are no more calls
than that, from outside and of the handlers that so many instructions take. Each
of them took a handler as long as there was one, and each belongs to one question;
and at no time are more calls under way than there are handlers, and one. -/
theorem run_forwards_isLeast (selector : UInt16) (script : List (List Action)) (calls : List Call) :
    ∃ (as : List Answer) (last : Recorder),
      (answers classifier calls).run (start selector script) = (as.map .ok, last) ∧
      run classifier selector script calls = .ok as ∧ Transcript ⟨selector, script⟩ calls as ∧
      let events := as.flatMap (·.events)
      let left := events.countP Event.isSyscall + events.countP Event.isVmgexit
      IsLeast {n | n = calls.length + ((script.take n).map ownCalls).sum} left ∧
      last.script = script.drop left ∧ script.length - last.script.length = min left script.length ∧
      events.countP Event.isClassify = left ∧
      ∀ answer ∈ as, ∀ before, before <+: answer.events → underWay before ≤ script.length + 1 := by
  obtain ⟨as, s, hrun, htranscript, htally, hnests⟩ := answers_tally classifier calls (start selector script)
  refine ⟨as, _, hrun, run_eq_ok classifier hrun, htranscript, htally.least, htally.script, ?consumed,
    htranscript.unbroken.counts.1, fun answer hanswer => (hnests answer hanswer).atMost⟩
  case consumed =>
    have hscript : s.script = script.drop (forwards (as.flatMap (·.events))) := htally.script
    change script.length - s.script.length = min (forwards _) _
    rw [hscript, List.length_drop]
    omega

/-- A call whose handler makes two of the same registers, the first of which is
served by a call of its own: four in all, and the last handler is left over. -/
theorem run_forwards_isLeast_handler_left_over :
    let script : List (List Action) := [[.again, .again], [.selector 0x33, .again], [], [], [.again]]
    ∃ (as : List Answer) (last : Recorder),
      (answers .bySelector [⟨.stage 39 [], none⟩]).run (start 0x10 script) = (as.map .ok, last) ∧
      (as.flatMap (·.events)).countP Event.isClassify = 4 ∧ last.script = [[.again]] := by
  intro script
  obtain ⟨as, last, hrun, -, -, hleast, hscript, -, hasked, -⟩ :=
    run_forwards_isLeast .bySelector 0x10 script [⟨.stage 39 [], none⟩]
  have hother : ∀ n < 4, n ≠ 1 + ((script.take n).map ownCalls).sum := by decide
  have hfour : IsLeast {n | n = 1 + ((script.take n).map ownCalls).sum} 4 :=
    ⟨rfl, fun n hn => Nat.le_of_not_lt fun hlt => hother n hlt hn⟩
  have hleft := IsLeast.unique hleast hfour
  exact ⟨as, last, hrun, hasked.trans hleft, hscript.trans (congrArg script.drop hleft)⟩

end Recorder
end SyscallGate
