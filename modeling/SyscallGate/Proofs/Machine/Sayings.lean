/-
# What a step has to say

Five kinds of step talk to the console: those that print, the one that sets the
console up, the check when a guest starts, and a call without registers. What
each of them says is settled when it begins (`Step.sayings`), and it says that, once
and in that order, whatever happens before the step is over, as all of it is
said before the code leaves (`runStep_sayings`).

Key definitions: `Machine.Event.isSaying`, `Machine.Step.sayings`.
Key theorems: `Machine.print_did`, `Machine.setUpConsole_did`,
`Machine.runStep_sayings`.
-/
import SyscallGate.Proofs.Machine.Own
import SyscallGate.Proofs.Machine.Talks

namespace SyscallGate
namespace Machine

/-- Whether an event is what somebody says on the console. -/
def Event.isSaying : Event → Bool
  | message _ | setUp => true
  | _ => false

/-- What was said. -/
def sayings (events : List Event) : List Event := events.filter Event.isSaying

theorem sayings_append (events later : List Event) : sayings (events ++ later) = sayings events ++ sayings later :=
  List.filter_append events later

/-- A text, said on the console. -/
def said (text : String) : Event := .message (textBytes text)

/-- What a step says on the console, from a machine with these MSRs, where the
entry code is at `entry`. -/
def Step.sayings (entry : UInt64) (msrs : UInt32 → UInt64) : Step → List Event
  | routeImage none => [said "ERR: BUG: vmpl_dispatch called without registers\n"]
  | startUp =>
    [.setUp, said (if msrs Ghcb.statusMsr &&& Ghcb.snpActive = 0 then notActiveText (msrs Ghcb.statusMsr)
      else readyText entry (EntryCode.finish entry))]
  | serialSetUp => [.setUp]
  | print text => [said text]
  | printHex value => [said (Numeral.hex value.toNat ++ "\n")]
  | _ => []

theorem Step.sayings_of_not_talks {step : Step} (h : step.talks = false) (entry : UInt64)
    (msrs : UInt32 → UInt64) : step.sayings entry msrs = [] := by
  rcases step with _ | _ | ⟨_ | _⟩ | _ | _ | _ | _ | _ | _ | _ | _ | _ | _ | _ | _ | _ | _ | _ | _ | _ | _ | _ <;>
    first | rfl | cases h

/-! ### Talks, as own events -/

theorem sayings_outputs (writes : List (UInt16 × UInt8)) : sayings (outputs writes) = [] := by
  refine List.filter_eq_nil_iff.mpr fun event hevent => ?_
  obtain ⟨write, -, rfl⟩ := List.mem_map.mp hevent
  simp [Event.isSaying]

theorem sayings_messageTalk (ready : Bool) (bytes : List UInt8) :
    sayings (messageTalk ready bytes) = [.message bytes] := by
  have hbegin (more : List Event) : sayings (.locked :: .message bytes :: more) = .message bytes :: sayings more := rfl
  rw [messageTalk, sayings_append, hbegin, sayings_outputs]
  rfl

theorem sayings_setUpTalk (control : UInt8) : sayings (setUpTalk control) = [.setUp] := rfl

/-- No step begins or ends in a talk. -/
theorem Talk.closed {answers : UInt8 → Prop} {ready now : Bool} {talk : List Event}
    (h : Talk answers ready talk now) : Closed talk talk := by
  refine .of_forall fun event hevent => ?_
  have htalk := h.isTalk event hevent
  cases event <;> first | rfl | cases htalk

theorem print_did {m : Machine} (h : AtRest m.console) (text : String) : ∃ m' self,
    (print true text).run.run m = (.ok (), m') ∧ Did m self m' ∧ sayings self = [said text] := by
  obtain ⟨written, -, hrun⟩ := print_run h text
  have htalk : Talk (fun _ => True) m.console.value.ready _ _ := .message (textBytes text)
  exact ⟨_, _, hrun, ⟨_, rfl, htalk.closed⟩, sayings_messageTalk _ _⟩

theorem setUpConsole_did {m : Machine} (h : AtRest m.console) : ∃ m' self,
    (setUpConsole true).run.run m = (.ok (), m') ∧ Did m self m' ∧ sayings self = [.setUp] ∧
      AtRest m'.console ∧ m'.msrs = m.msrs := by
  obtain ⟨control, input, written, hrun, -⟩ := setUpConsole_run h
  have htalk : Talk (fun _ => True) m.console.value.ready (setUpTalk control) true := .setUp trivial
  exact ⟨_, _, hrun, ⟨_, rfl, htalk.closed⟩, sayings_setUpTalk control, h.passed rfl, rfl⟩

/-! ### Steps -/

/-- Nothing is said by whoever only operates. -/
theorem silent_tenor : Tenor fun self => sayings self = [] where
  nothing := rfl
  append hself hmore := by rw [sayings_append, hself, hmore]; rfl
  mild := by
    intro event hmild
    cases event <;> first | rfl | cases hmild
  request _ _ _ := rfl

section Steps

variable (settings : Settings) {server : Server} (haside : Aside server)

include haside

theorem terminate_did {α : Type} (reasonSet reasonCode : UInt64) (m : Machine) : ∃ m' self,
    (terminate server reasonSet reasonCode : Exec α).run.run m = (.error .halted, m') ∧ Did m self m' ∧
      sayings self = [] := by
  have hstop : ((terminate server reasonSet reasonCode : Exec α).run.run m).1 = .error .halted :=
    (terminate_yields server reasonSet reasonCode m).resolve_left fun ⟨_, _, hfalse⟩ => hfalse
  have hkept := (operations_conducted silent_tenor).terminate (companions_of_aside silent_tenor haside)
    (α := α) reasonSet reasonCode m m ⟨rfl, [], .refl m, rfl⟩
  obtain ⟨-, self, hdid, hself⟩ := hkept.2
  exact ⟨_, self, Prod.ext hstop rfl, hdid, hself⟩

theorem startUp_sayings {m : Machine} (h : AtRest m.console) (entry : UInt64) : ∃ self,
    Did m self ((startUp true entry server).run.run m).2 ∧ sayings self = Step.startUp.sayings entry m.msrs := by
  obtain ⟨m₁, first, hset, hfirst, hsaid, hrest, hmsrs⟩ := setUpConsole_did h
  let m₂ := m₁.recording (.readMsr Ghcb.statusMsr (m.msrs Ghcb.statusMsr))
  have hread : (liftM (readMsr Ghcb.statusMsr) : Exec UInt64).run.run m₁ = (.ok (m.msrs Ghcb.statusMsr), m₂) := by
    change (Except.ok <$> readMsr Ghcb.statusMsr).run m₁ = _
    rw [StateT.run_map, readMsr_run, hmsrs]
    rfl
  have hbefore : Did m (first ++ [.readMsr Ghcb.statusMsr (m.msrs Ghcb.statusMsr)]) m₂ :=
    hfirst.append (.event rfl rfl)
  rw [startUp, run_bind_ok hset, run_bind_ok hread]
  by_cases hactive : m.msrs Ghcb.statusMsr &&& Ghcb.snpActive = 0
  · obtain ⟨m₃, second, hprint, hsecond, hnotActive⟩ :=
      print_did (m := m₂) hrest (notActiveText (m.msrs Ghcb.statusMsr))
    obtain ⟨m₄, third, hstop, hthird, hnothing⟩ :=
      terminate_did haside (α := Unit) Ghcb.reasonSet Ghcb.notSnpReason m₃
    rw [if_pos hactive, run_bind_ok hprint, terminateNotSnp, run_bind_error hstop]
    refine ⟨_, (hbefore.append hsecond).append hthird, ?_⟩
    rw [sayings_append, sayings_append, sayings_append, hsaid, hnotActive, hnothing, Step.sayings, if_pos hactive]
    rfl
  · obtain ⟨m₃, second, hprint, hsecond, hready⟩ :=
      print_did (m := m₂) hrest (readyText entry (EntryCode.finish entry))
    rw [if_neg hactive, hprint]
    refine ⟨_, hbefore.append hsecond, ?_⟩
    rw [sayings_append, sayings_append, hsaid, hready, Step.sayings, if_neg hactive]
    rfl

/-- Every step has its say on a console at rest. -/
theorem carryOut_sayings (hverbose : settings.verbose = true) (step : Step) {m : Machine} (h : AtRest m.console) :
    ∃ self, Did m self ((carryOut settings server step).run.run m).2 ∧
      sayings self = step.sayings settings.entry m.msrs := by
  have hfinish {x : Exec Unit} (result : Result) :
      ((do x; return result : Exec Result).run.run m).2 = (x.run.run m).2 := by
    rcases hx : x.run.run m with ⟨stop | _, after⟩
    · rw [run_bind_error hx]
    · rw [run_bind_ok hx]
      rfl
  have hprint (text : String) : ∃ self, Did m self ((print settings.verbose text).run.run m).2 ∧
      sayings self = [said text] := by
    obtain ⟨m', self, hrun, hdid, hsaid⟩ := print_did h text
    rw [hverbose, hrun]
    exact ⟨self, hdid, hsaid⟩
  cases htalks : step.talks with
  | false =>
    rw [Step.sayings_of_not_talks htalks]
    have hcovers : Covers (fun self => sayings self = []) step := {
      pause := fun _ => rfl
      write := fun _ _ _ => rfl
      talk := fun h => by rw [htalks] at h; cases h
      spin := fun _ => rfl }
    exact carryOut_conducted settings silent_tenor haside hcovers m
  | true =>
    cases step with
    | routeImage regs =>
      cases regs with
      | none =>
        have hcode : carryOut settings server (.routeImage none) =
            (do print settings.verbose "ERR: BUG: vmpl_dispatch called without registers\n"
                return .answered (-Errno.invalidArgument.number.toInt64) none) := by
          rw [carryOut, Option.map_none, routeImage, bind_assoc]
          rfl
        rw [hcode, hfinish]
        exact hprint _
      | some regs => cases htalks
    | startUp =>
      rw [carryOut, hfinish, hverbose]
      exact startUp_sayings haside h settings.entry
    | serialSetUp =>
      obtain ⟨m', self, hrun, hdid, hsaid, -, -⟩ := setUpConsole_did h
      rw [carryOut, hfinish, hverbose, hrun]
      exact ⟨self, hdid, hsaid⟩
    | print text =>
      rw [carryOut, hfinish]
      exact hprint text
    | printHex value =>
      rw [carryOut, hfinish]
      exact hprint _
    | _ => cases htalks

end Steps

/-- **A step has its say**, at whatever depth it is served. -/
theorem runStep_sayings (settings : Settings) (hverbose : settings.verbose = true) (depth : Nat) (step : Step)
    {m : Machine} (h : AtRest m.console) :
    sayings (own (since m.history ((runStep settings (serve settings depth) step).run m).2.history)) =
      step.sayings settings.entry m.msrs := by
  obtain ⟨self, hdid, hself⟩ := carryOut_sayings settings (serve_aside settings depth) hverbose step
    (m := m.withBudget settings.halts settings.pauses) h
  have hrun : Did m self ((runStep settings (serve settings depth) step).run m).2 := by
    rw [runStep_run]
    exact hdid
  rw [hrun.own_since]
  exact hself

end Machine
end SyscallGate
