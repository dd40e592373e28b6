/-
# Terminating the guest

A termination writes its request, leaves for it, and halts again and again, with
no end but that of the budget (`haltForever_eq`). Whoever serves the request may
undo it, change the ring, and run steps that halt themselves; he cannot use up the
HLTs that the termination has left, as a step in the middle of another has a
budget of its own (`perform_budget`). So after him there are HLTs and nothing
else, as many as a step may take. In the middle of another step a termination
stops in the same way, and stops only itself: the handler that ran it goes on with
the registers it had, and the step that is served gets what that handler leaves
(`goOn`). `termination_never_returns` says all of this.

Key definitions: `Machine.Follows`, `Machine.Step.reason?`,
`Machine.requesting`, `Machine.goOn`, `Machine.Hands`.
Key theorems: `Machine.haltForever_run`, `Machine.Follows.budget`,
`Machine.terminate_run`, `Machine.Follows.exhausted_events`,
`Machine.Hands.goOn`, `Machine.through_goOn`,
`Machine.termination_never_returns`.
-/
import SyscallGate.Proofs.Machine.Own

namespace SyscallGate
namespace Machine

/-! ### Halting -/

theorem halt_run_last {m : Machine} (h : m.haltsLeft ≤ 1) : halt.run.run m = (.error .halted, m.recording .halt) := by
  obtain ⟨selector, msrs, input, written, console, script, haltsLeft, pausesLeft, history⟩ := m
  match haltsLeft, h with
  | 0, _ | 1, _ => rfl

theorem halt_run_more {m : Machine} {left : Nat} (h : m.haltsLeft = left + 2) :
    halt.run.run m = (.ok (), { m.recording .halt with haltsLeft := left + 1 }) := by
  obtain ⟨selector, msrs, input, written, console, script, haltsLeft, pausesLeft, history⟩ := m
  obtain rfl : haltsLeft = left + 2 := h
  rfl

/-- The loop has no end but that of the budget: one HLT, and all over again. -/
theorem haltForever_eq {α : Type} : (haltForever : Exec α) = (do halt; haltForever) := by
  refine funext fun m => ?_
  change (halt >>= fun _ => haltTimes m.haltsLeft : Exec α).run.run m = (halt >>= fun _ => haltForever).run.run m
  by_cases hlast : m.haltsLeft ≤ 1
  · rw [run_bind_error (halt_run_last hlast), run_bind_error (halt_run_last hlast)]
  · obtain ⟨left, hleft⟩ := Nat.exists_eq_add_of_le' (Nat.lt_of_not_le hlast)
    rw [run_bind_ok (halt_run_more hleft), run_bind_ok (halt_run_more hleft), hleft]
    rfl

/-- The machine after all the HLTs that its step may take. -/
def exhausted (m : Machine) : Machine :=
  { m with haltsLeft := min 1 m.haltsLeft, history := List.replicate (max 1 m.haltsLeft) .halt ++ m.history }

theorem exhausted_last {m : Machine} (h : m.haltsLeft ≤ 1) : m.exhausted = m.recording .halt := by
  rw [exhausted, Nat.min_eq_right h, Nat.max_eq_left h]
  rfl

theorem exhausted_more {m : Machine} {left : Nat} (h : m.haltsLeft = left + 2) :
    m.exhausted = exhausted { m.recording .halt with haltsLeft := left + 1 } := by
  rw [exhausted, exhausted, h, show max 1 (left + 2) = max 1 (left + 1) + 1 by omega, List.replicate_succ',
    List.append_assoc, show min 1 (left + 2) = min 1 (left + 1) by omega]
  rfl

/-- **The loop of HLTs takes all there are**, by recursion on how many that is. -/
theorem haltForever_run {α : Type} (m : Machine) :
    (haltForever : Exec α).run.run m = (.error .halted, m.exhausted) := by
  rw [haltForever_eq]
  by_cases hlast : m.haltsLeft ≤ 1
  · rw [run_bind_error (halt_run_last hlast), exhausted_last hlast]
  · obtain ⟨left, hmore⟩ := Nat.exists_eq_add_of_le' (Nat.lt_of_not_le hlast)
    rw [run_bind_ok (halt_run_more hmore), exhausted_more hmore]
    exact haltForever_run _
termination_by m.haltsLeft
decreasing_by omega

/-! ### The budget of a step -/

/-- Whoever follows the script serves what leaves: from where the script stands,
or with steps nested so deep. -/
inductive Follows (settings : Settings) : Server → Prop where
  | script : Follows settings (handle settings)
  | depth (depth : Nat) : Follows settings (serve settings depth)

/-- The HLTs and the PAUSEs that a step has left. -/
def budget (m : Machine) : Nat × Nat := (m.haltsLeft, m.pausesLeft)

section Budget

variable (settings : Settings)

/-- No action of a handler takes any: a step that it runs has a budget of its own. -/
theorem perform_budget (server : Server) (h : Handling) (action : Action) (m : Machine) :
    ((perform settings server h action).run m).2.budget = m.budget := by
  cases action with
  | run step =>
    change ((runStep settings server step).run (m.recording .enter)).2.budget = m.budget
    rw [runStep_run]
    rfl
  | _ => rfl

theorem actions_budget (server : Server) : ∀ (actions : List Action) (h : Handling) (m : Machine),
    ((actions.foldlM (perform settings server) h).run m).2.budget = m.budget
  | [], _, _ => rfl
  | action :: actions, h, m => by
    rw [List.foldlM_cons, StateT.run_bind]
    exact (actions_budget server actions _ _).trans (perform_budget settings server h action m)

theorem serve_budget (depth : Nat) (regs : Registers) (m : Machine) :
    ((serve settings depth regs).run m).2.budget = m.budget := by
  obtain ⟨selector, msrs, input, written, console, script, haltsLeft, pausesLeft, history⟩ := m
  cases depth with
  | zero => rfl
  | succ depth =>
    cases script with
    | nil => rfl
    | cons handler script => exact actions_budget settings (serve settings depth) handler (.start regs) _

variable {settings} {server : Server}

/-- **Who follows the script leaves the budget alone.** -/
theorem Follows.budget (h : Follows settings server) (regs : Registers) (m : Machine) :
    ((server regs).run m).2.budget = m.budget := by
  cases h with
  | script => exact serve_budget settings m.script.length regs m
  | depth depth => exact serve_budget settings depth regs m

theorem Follows.aside (h : Follows settings server) : Aside server := by
  cases h with
  | script => exact fun regs m => serve_aside settings m.script.length regs m
  | depth depth => exact serve_aside settings depth

end Budget

/-! ### Terminating -/

/-- The reason that a step terminates the guest for, if that is what it does: its
set and its code. -/
def Step.reason? : Step → Option (UInt64 × UInt64)
  | terminate reasonSet reasonCode => some (reasonSet, reasonCode)
  | terminateGeneral => some (Ghcb.reasonSet, Ghcb.generalReason)
  | terminateNotSnp => some (Ghcb.reasonSet, Ghcb.notSnpReason)
  | _ => none

/-- The machine when the code has left to be terminated. -/
def requesting (m : Machine) (reasonSet reasonCode : UInt64) : Machine :=
  { m with
    msrs := assign m.msrs Ghcb.msr (Ghcb.terminateRequest reasonSet reasonCode)
    history := .exit .vmgexit (.terminate reasonSet reasonCode) [] ::
      .writeMsr Ghcb.msr (Ghcb.terminateRequest reasonSet reasonCode) :: m.history }

section Terminate

variable (reasonSet reasonCode : UInt64)

/-- **A termination asks, is served, and takes all HLTs there are then.** -/
theorem terminate_run {α : Type} (server : Server) (m : Machine) :
    (terminate server reasonSet reasonCode : Exec α).run.run m =
      (.error .halted, exhausted ((server { Registers.zero with rflags := Flags.idle }).run
        (m.requesting reasonSet reasonCode)).2) := by
  have hrequest : (do writeMsr Ghcb.msr (Ghcb.terminateRequest reasonSet reasonCode)
                      vmgexit server (.terminate reasonSet reasonCode) : StateM Machine Unit).run m =
      ((), ((server { Registers.zero with rflags := Flags.idle }).run (m.requesting reasonSet reasonCode)).2) := by
    rw [StateT.run_bind, writeMsr_run]
    rfl
  have hrun : (terminate server reasonSet reasonCode : Exec α).run.run m = haltForever.run.run
      ((do writeMsr Ghcb.msr (Ghcb.terminateRequest reasonSet reasonCode)
           vmgexit server (.terminate reasonSet reasonCode) : StateM Machine Unit).run m).2 := rfl
  rw [hrun, hrequest, haltForever_run]

theorem carryOut_of_reason {settings : Settings} {server : Server} {step : Step}
    (h : step.reason? = some (reasonSet, reasonCode)) :
    carryOut settings server step = terminate server reasonSet reasonCode := by
  cases step <;> first | cases h; rfl | cases h

theorem runStep_terminates {settings : Settings} {step : Step} (h : step.reason? = some (reasonSet, reasonCode))
    (server : Server) (m : Machine) :
    (runStep settings server step).run m = (.stopped .halted,
      (exhausted ((server { Registers.zero with rflags := Flags.idle }).run
        ((m.withBudget settings.halts settings.pauses).requesting reasonSet reasonCode)).2).withBudget
          m.haltsLeft m.pausesLeft) := by
  rw [runStep_run, carryOut_of_reason reasonSet reasonCode h, terminate_run]
  rfl

section Served

variable {settings : Settings} {server : Server} (hserver : Follows settings server)

include hserver

theorem Follows.exhausted_history (regs : Registers) (m : Machine) :
    (exhausted ((server regs).run m).2).history =
      List.replicate (max 1 m.haltsLeft) .halt ++ ((server regs).run m).2.history := by
  have hleft : ((server regs).run m).2.haltsLeft = m.haltsLeft := congrArg Prod.fst (hserver.budget regs m)
  rw [exhausted, hleft]

/-- The events of a termination that comes after others: its request and its exit,
those of whoever serves it, and HLTs. Of the served ones only changes from outside
are in the middle of no other step. -/
theorem Follows.exhausted_events {origin m : Machine} {prior : List Event}
    (hprior : m.history = prior.reverse ++ origin.history) (hclosed : Closed prior prior) :
    let asked : List Event := [.writeMsr Ghcb.msr (Ghcb.terminateRequest reasonSet reasonCode),
      .exit .vmgexit (.terminate reasonSet reasonCode) []]
    let halts := List.replicate (max 1 m.haltsLeft) Event.halt
    let leaving := m.requesting reasonSet reasonCode
    let after := ((server { Registers.zero with rflags := Flags.idle }).run leaving).2
    let served := since leaving.history after.history
    let events := since origin.history after.exhausted.history
    events = prior ++ asked ++ served ++ halts ∧ own events = prior ++ asked ++ own served ++ halts ∧
      Changes (own served) := by
  intro asked halts leaving after served events
  obtain ⟨changes, ⟨between, hbetween, hserved⟩, hchanges⟩ :=
    hserver.aside { Registers.zero with rflags := Flags.idle } leaving
  have hsince : served = between := by
    change since leaving.history after.history = between
    rw [hbetween, since_append, List.reverse_reverse]
  have hleaving : leaving.history = (prior ++ asked).reverse ++ origin.history := by
    rw [List.reverse_append, List.append_assoc, ← hprior]
    rfl
  have hafter : after.exhausted.history = (prior ++ asked ++ between ++ halts).reverse ++ origin.history := by
    rw [List.reverse_append, List.reverse_append, List.reverse_replicate, List.append_assoc, List.append_assoc,
      ← hleaving, ← hbetween]
    exact hserver.exhausted_history _ leaving
  have hevents : events = prior ++ asked ++ between ++ halts := by
    change since origin.history after.exhausted.history = _
    rw [hafter, since_append, List.reverse_reverse]
  have hasked : Closed asked asked := (Closed.event rfl).append (.event rfl)
  have hhalts : Closed halts halts := .of_forall fun event hevent => by
    rw [List.eq_of_mem_replicate hevent]
    rfl
  rw [hevents, hsince, hserved.own_eq]
  exact ⟨rfl, (((hclosed.append hasked).append hserved).append hhalts).own_eq, hchanges⟩

end Served

end Terminate

/-! ### In the middle of another step -/

/-- A handler with a step in its middle, to whose registers that step does
nothing: it goes on with those it had, on the machine that the stopped step left
behind. -/
def goOn (settings : Settings) (inner : Server) (before : List Action) (step : Step) (later : List Action)
    (regs : Registers) (m : Machine) : Registers × Machine :=
  let (h, near) := (before.foldlM (perform settings inner) (Handling.start regs)).run m
  let resumed := ((runStep settings inner step).run (near.recording .enter)).2.recording (.leave (.stopped .halted))
  let (h, after) := (later.foldlM (perform settings inner) h).run resumed
  (h.regs, after)

section Nested

variable {settings : Settings} {inner server : Server} {step : Step}

theorem perform_stopped (h : Handling) {m : Machine} {stop : Stop}
    (hstop : ((runStep settings inner step).run (m.recording .enter)).1 = .stopped stop) :
    (perform settings inner h (.run step)).run m =
      (h, ((runStep settings inner step).run (m.recording .enter)).2.recording (.leave (.stopped stop))) := by
  have hrun : (perform settings inner h (.run step)).run m =
      ({ h with last := ((runStep settings inner step).run (m.recording .enter)).1.updateLast h.last },
        ((runStep settings inner step).run (m.recording .enter)).2.recording
          (.leave ((runStep settings inner step).run (m.recording .enter)).1)) := rfl
  rw [hrun, hstop]
  rfl

theorem actions_stopped (hstop : ∀ m, ((runStep settings inner step).run m).1 = .stopped .halted)
    (before later : List Action) (regs : Registers) (m : Machine) :
    (let (h, after) := ((before ++ .run step :: later).foldlM (perform settings inner) (Handling.start regs)).run m
     (h.regs, after)) = goOn settings inner before step later regs m := by
  have hmiddle (h : Handling) (near : Machine) :
      ((.run step :: later).foldlM (perform settings inner) h).run near =
        (later.foldlM (perform settings inner) h).run
          (((runStep settings inner step).run (near.recording .enter)).2.recording (.leave (.stopped .halted))) := by
    rw [List.foldlM_cons, StateT.run_bind, perform_stopped h (hstop _)]
    rfl
  rw [List.foldlM_append, StateT.run_bind, goOn]
  exact congrArg (fun p : Handling × Machine => (p.1.regs, p.2)) (hmiddle _ _)

/-- A server that takes the next handler, with so many left after it, and has the
steps of that one served by `inner`. -/
inductive Hands (settings : Settings) (left : Nat) : Server → Server → Prop where
  | script : Hands settings left (handle settings) (serve settings left)
  | depth (depth : Nat) : Hands settings left (serve settings (depth + 1)) (serve settings depth)

theorem Hands.run {rest : List (List Action)} (h : Hands settings rest.length server inner)
    {handler : List Action} (regs : Registers) {m : Machine} (hscript : m.script = handler :: rest) :
    (server regs).run m =
      let (h, after) := (handler.foldlM (perform settings inner) (Handling.start regs)).run { m with script := rest }
      (h.regs, after) := by
  obtain ⟨selector, msrs, input, written, console, script, haltsLeft, pausesLeft, history⟩ := m
  obtain rfl : script = handler :: rest := hscript
  cases h <;> rfl

/-- With a step in its middle that is stopped, the handler goes on. -/
theorem Hands.goOn {rest : List (List Action)} (h : Hands settings rest.length server inner)
    (hstop : ∀ m, ((runStep settings inner step).run m).1 = .stopped .halted) {before later : List Action}
    (regs : Registers) {m : Machine} (hscript : m.script = (before ++ .run step :: later) :: rest) :
    (server regs).run m = goOn settings inner before step later regs { m with script := rest } :=
  (h.run regs hscript).trans (actions_stopped hstop before later regs _)

theorem approach_script (m : Machine) : (approach.run m).2.script = m.script := by
  rw [approach_run]
  by_cases hring : m.selector &&& 3 = 0
  · rw [if_pos hring]
    rfl
  · rw [if_neg hring]
    rfl

theorem through_goOn {interrupted : Step} {window : Exit → Window} {regs : Registers}
    {finish : Exit × Registers → Result} (hthrough : interrupted.Through window regs finish)
    (hstop : ∀ m, ((runStep settings inner step).run m).1 = .stopped .halted) {rest : List (List Action)}
    (hhands : Hands settings rest.length server inner) {m : Machine} {before later : List Action}
    (hscript : m.script = (before ++ .run step :: later) :: rest) :
    let near := approach.run (m.withBudget settings.halts settings.pauses)
    let kind := near.1
    let leaving := near.2.recording (.exit kind .call ((window kind).shown.map fun r => (r, regs.get r)))
    let served := goOn settings inner before step later (kind.handOver ((window kind).look regs))
      { leaving with script := rest }
    (runStep settings server interrupted).run m =
      (finish (kind, (window kind).takeBack regs served.1), served.2.withBudget m.haltsLeft m.pausesLeft) := by
  intro near kind leaving served
  have hleaving : leaving.script = (before ++ .run step :: later) :: rest :=
    (approach_script (m.withBudget settings.halts settings.pauses)).trans hscript
  have hserved : (server (kind.handOver ((window kind).look regs))).run leaving = served :=
    hhands.goOn hstop _ hleaving
  rw [runStep_run, hthrough, StateT.run_map, gate_run, ← hserved]
  rfl

end Nested

/-! ### What a termination does -/

/-- **A termination never returns**, and takes nobody else with it. Whoever serves
it, it is stopped in a halt. If he follows the script, the machine is left as he
leaves it, with the HLTs of a whole step on top, and the termination itself did no
more than write its request, leave once, and halt. A step that is served by a
handler which runs a termination gets what the handler leaves: it goes on with the
registers that it had before, so a call completes. -/
theorem termination_never_returns (settings : Settings) (hhalts : 1 ≤ settings.halts) (step : Step)
    {reasonSet reasonCode : UInt64} (hreason : step.reason? = some (reasonSet, reasonCode)) :
    let request := Ghcb.terminateRequest reasonSet reasonCode
    request.toNat = 0x100 ||| (reasonSet.toNat <<< 12) % 2 ^ 64 ||| (reasonCode.toNat <<< 16) % 2 ^ 64 ∧
    (∀ (server : Server) m, ((runStep settings server step).run m).1 = .stopped .halted) ∧
    (∀ server, Follows settings server → ∀ m,
      let leaving := (m.withBudget settings.halts settings.pauses).requesting reasonSet reasonCode
      let served := ((server { Registers.zero with rflags := Flags.idle }).run leaving).2
      let ended := ((runStep settings server step).run m).2
      let asked : List Event := [.writeMsr 0xc0010130 request, .exit .vmgexit (.terminate reasonSet reasonCode) []]
      let between := since leaving.history served.history
      let halts := List.replicate settings.halts Event.halt
      let events := since m.history ended.history
      ended = ({ served with history := halts ++ served.history } : Machine).withBudget m.haltsLeft m.pausesLeft ∧
      events = asked ++ between ++ halts ∧ own events = asked ++ own between ++ halts ∧ Changes (own between)) ∧
    (∀ server inner rest, Hands settings rest.length server inner → ∀ (m : Machine) before later,
      m.script = (before ++ .run step :: later) :: rest →
      (∀ regs, (server regs).run m = goOn settings inner before step later regs { m with script := rest }) ∧
      ∀ interrupted window regs finish, interrupted.Through window regs finish →
        let near := approach.run (m.withBudget settings.halts settings.pauses)
        let kind := near.1
        let leaving := near.2.recording (.exit kind .call ((window kind).shown.map fun r => (r, regs.get r)))
        let served := goOn settings inner before step later (kind.handOver ((window kind).look regs))
          { leaving with script := rest }
        (runStep settings server interrupted).run m =
          (finish (kind, (window kind).takeBack regs served.1), served.2.withBudget m.haltsLeft m.pausesLeft)) := by
  intro request
  have hstop (server : Server) (m : Machine) : ((runStep settings server step).run m).1 = .stopped .halted := by
    rw [runStep_terminates reasonSet reasonCode hreason]
  refine ⟨?request, hstop, ?alone, ?nested⟩
  case request =>
    change (Ghcb.terminateCode ||| (reasonSet <<< 12) ||| (reasonCode <<< 16)).toNat = _
    rw [UInt64.toNat_or, UInt64.toNat_or, UInt64.toNat_shiftLeft, UInt64.toNat_shiftLeft]
    rfl
  case alone =>
    intro server hserver m leaving served ended asked between halts events
    have hended : ended = served.exhausted.withBudget m.haltsLeft m.pausesLeft :=
      congrArg Prod.snd (runStep_terminates reasonSet reasonCode hreason server m)
    have hbudget : max 1 leaving.haltsLeft = settings.halts := Nat.max_eq_right hhalts
    have hhistory : served.exhausted.history = halts ++ served.history := by
      rw [hserver.exhausted_history _ leaving, hbudget]
    have hprior : (m.withBudget settings.halts settings.pauses).history = [].reverse ++ m.history := rfl
    have hall := hserver.exhausted_events reasonSet reasonCode hprior .nothing
    rw [show max 1 (m.withBudget settings.halts settings.pauses).haltsLeft = settings.halts from hbudget] at hall
    have hsame : events = since m.history served.exhausted.history := congrArg (since m.history ·.history) hended
    rw [hsame]
    refine ⟨?_, hall⟩
    rw [hended]
    exact congrArg (fun history => ({ served with history } : Machine).withBudget m.haltsLeft m.pausesLeft) hhistory
  case nested =>
    intro server inner rest hhands m before later hscript
    refine ⟨fun regs => hhands.goOn (hstop inner) regs hscript, ?_⟩
    intro interrupted window regs finish hthrough
    exact through_goOn hthrough (hstop inner) hhands hscript

/-- A call whose handler terminates the guest between two writes to RAX. Whoever
serves the termination clears its request, changes the ring, and terminates the
guest once more. -/
theorem termination_never_returns_in_a_call :
    let settings : Settings := ⟨false, 2, 1, 0x400000⟩
    let call : Step := .call ⟨7, [5], by decide⟩
    let m := start settings 0x10 [] [] true
      [[.register (.set .rax 40), .run (.terminate 15 13), .register (.add .rax 2)],
        [.msr 0xc0010130 0, .selector 0x33, .run .terminateGeneral]]
    let run := (runStep settings (handle settings) call).run m
    run.1 = .returned 42 ∧ run.2.haltsLeft = 2 ∧
      since m.history run.2.history =
        [.readSelector 0x10, .writeMsr 0xc0010130 0x16, .exit .vmgexit .call [(.rax, 7), (.rdi, 5)],
          .enter, .writeMsr 0xc0010130 0xdf100, .exit .vmgexit (.terminate 15 13) [],
          .setMsr 0xc0010130 0, .setSelector 0x33,
          .enter, .writeMsr 0xc0010130 0xf100, .exit .vmgexit (.terminate 15 0) [], .halt, .halt,
          .leave (.stopped .halted), .halt, .halt, .leave (.stopped .halted)] := by
  intro settings call m run
  obtain ⟨-, -, -, hnested⟩ := termination_never_returns settings (by decide) (.terminate 15 13) rfl
  have hrun := (hnested (handle settings) (serve settings 1) [[.msr 0xc0010130 0, .selector 0x33, .run .terminateGeneral]]
    .script m [.register (.set .rax 40)] [.register (.add .rax 2)] rfl).2 call _ _ _ (Step.call_through _)
  change run = _ at hrun
  rw [hrun]
  decide +kernel

end Machine
end SyscallGate
